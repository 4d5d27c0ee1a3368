import Mathlib.Data.List.MinMax
import TrustLayer.AgentGuard.Firewall.Refetch
import TrustLayer.AgentGuard.Firewall.TwoStage
import TrustLayer.AgentGuard.Verdict
import TrustLayer.Library.Unicode

/-!
# The scan of a text

A text is graded by the worst of the rules that match it.  What a tool is about
to read is fetched first, behind the guard of the addresses.
-/

namespace TrustLayer.AgentGuard.Firewall

open TrustLayer.Library

/-- The matching of the `regex` crate. -/
class RegexCrate where
  /-- `Regex::new(pattern).is_match(text)`. -/
  isMatch : (pattern text : Str) → Bool

/-! ## Rules -/

structure DjlRule where
  id : Str
  /-- Absent for a rule of two stages. -/
  regex : Option Str
  severity : Nat
  twoStage : Bool

structure OwaspPattern where
  name : Str
  regex : Str

def directRule (id : String) (severity : Nat) (regex : String) : DjlRule :=
  { id := id.toList, regex := some regex.toList, severity, twoStage := false }

def twoStageRule (id : String) (severity : Nat) : DjlRule :=
  { id := id.toList, regex := none, severity, twoStage := true }

def owaspPattern (name regex : String) : OwaspPattern :=
  { name := name.toList, regex := regex.toList }

def rules : List DjlRule :=
  [directRule "DJL-PI-001" 9
      "(?i)ignore\\s+(?:all\\s+)?(?:previous|prior|above)\\s+instructions?",
    directRule "DJL-PI-002" 9
      ("(?i)disregard\\s+(?:the\\s+)?(?:system\\s+)?(?:prompt|message|instruct" ++
       "ions?)"),
    directRule "DJL-PI-003" 9
      ("(?i)you\\s+are\\s+now\\s+(?:a\\s+)?(?:DAN|jailbroken|unrestricted|free" ++
       "|uncensored)"),
    directRule "DJL-PI-004" 8
      "(?i)\\b(?:developer|dev|debug|admin|root|god|sudo)\\s+mode\\b",
    directRule "DJL-PI-005" 8
      "(?i)\\bDAN\\b(?:\\s+mode|\\s+prompt|\\s+jailbreak)?",
    directRule "DJL-PI-006" 8
      "(?i)\\bjailbreak\\b",
    directRule "DJL-PI-007" 7
      ("(?i)pretend\\s+(?:you\\s+(?:are|have\\s+no)|to\\s+be)\\s+(?:a\\s+)?(?:" ++
       "hacker|criminal|villain|evil|no\\s+restrictions?)"),
    directRule "DJL-PI-008" 8
      ("(?i)act\\s+as\\s+(?:if\\s+)?(?:you\\s+(?:are|have)\\s+)?(?:no\\s+(?:re" ++
       "strictions?|safety|guardrails?|ethics?)|unrestricted|uncensored)"),
    directRule "DJL-PI-009" 7
      "\\b(?:[A-Za-z0-9+/]\x7b80,\x7d=\x7b0,2\x7d)\\b",
    directRule "DJL-PI-010" 6
      "[Ѐ-ӿͰ-Ͽ]\x7b3,\x7d",
    directRule "DJL-PI-011" 9
      "[\\u\x7b202A\x7d-\\u\x7b202E\x7d\\u\x7b2066\x7d-\\u\x7b2069\x7d]",
    directRule "DJL-PI-012" 7
      "(?i)new\\s+(?:rules?|instructions?|directives?|guidelines?)\\s*[:\\-]",
    directRule "DJL-PI-013" 9
      ("(?i)(?:reveal|show|print|output|reproduce|repeat).\x7b0,40\x7d(?:syste" ++
       "m\\s+prompt|initial\\s+instructions?|hidden\\s+(?:prompt|message|instr" ++
       "uctions?))"),
    directRule "DJL-PI-014" 7
      ("(?i)(?:end|terminate|exit|close|finish)\\s+(?:of\\s+)?(?:system\\s+)?(" ++
       "?:prompt|instructions?|context|message)\\s*[\\.\\!\\,]"),
    directRule "DJL-PI-015" 7
      ("(?i)(?:assistant|model|ai|llm|chatgpt|gemini|claude)\\s*[,:\\-]\\s*(?:" ++
       "please\\s+)?(?:do|execute|run|forget|ignore)"),
    directRule "DJL-PI-016" 8
      ("(?i)<\\s*[/|]?\\s*(?:system|user|assistant|im_start|im_end|im_sep)\\b[" ++
       "^>]*>"),
    directRule "DJL-PI-017" 7
      ("(?i)\\b(?:i\\s+am|i'?m)\\s+(?:the\\s+)?(?:developer|creator|owner|admi" ++
       "n|administrator|openai|anthropic|google)\\b"),
    directRule "DJL-PI-018" 8
      ("(?i)\\brot[\\-\\s]?13\\b|\\bbase64[\\s\\-]?decode\\b|\\bdecode\\s+(?:a" ++
       "nd|then)\\s+(?:execute|run|follow)\\b"),
    directRule "DJL-PI-019" 6
      ("(?i)this\\s+is\\s+(?:a\\s+)?(?:test|simulation|hypothetical|fictional)" ++
       "\\s+(?:scenario|exercise|environment)"),
    directRule "DJL-PI-020" 9
      "(?i)forget\\s+(?:everything|all)\\s+(?:above|before|prior|previously)",
    directRule "DJL-SQLI-001" 9
      "(?i)'\\s*OR\\s+1\\s*=\\s*1",
    directRule "DJL-SQLI-002" 10
      "(?i);\\s*DROP\\s+TABLE\\b",
    directRule "DJL-SQLI-003" 9
      ("(?i)(?:['`)\\s\\d]|^)UNION\\s+(?:ALL\\s+)?SELECT\\s+(?:[*\\w`,\\s]+\\s" ++
       "+)?FROM\\b|['`)\\d]\\s*UNION\\s+(?:ALL\\s+)?SELECT\\b"),
    directRule "DJL-SQLI-004" 9
      "(?i)'\\s*OR\\s*'?x'?\\s*=\\s*'?x'?",
    directRule "DJL-SQLI-005" 9
      "(?i)admin'\\s*--",
    directRule "DJL-SQLI-006" 9
      "(?i)WAITFOR\\s+DELAY\\s+'\\d|BENCHMARK\\s*\\(|SLEEP\\s*\\(\\s*\\d",
    directRule "DJL-XSS-001" 8
      "(?i)<\\s*script\\b[^>]*>",
    directRule "DJL-XSS-002" 8
      "(?i)javascript\\s*:",
    directRule "DJL-XSS-003" 8
      ("(?i)\\bon(?:error|load|click|mouseover|focus|blur|change|submit|keypre" ++
       "ss)\\s*="),
    directRule "DJL-XSS-004" 7
      "(?i)<\\s*iframe\\b[^>]*\\bsrc\\s*=",
    directRule "DJL-XSS-005" 8
      "(?i)<\\s*img\\b[^>]*\\bonerror\\s*=",
    directRule "DJL-XSS-006" 8
      "(?i)data\\s*:\\s*text/html|data\\s*:\\s*application/x-javascript",
    twoStageRule "DJL-PII-001" 8,
    directRule "DJL-PII-002" 7
      "\\b(?:\\d[ \\-]?)\x7b12,18\x7d\\d\\b",
    directRule "DJL-PII-003" 7
      "\\b[A-Z]\x7b2\x7d\\d\x7b2\x7d[A-Z0-9]\x7b10,30\x7d\\b",
    directRule "DJL-PII-004" 6
      "\\b[A-Z]\\d\x7b8\x7d\\b",
    directRule "DJL-PII-005" 5
      ("\\+\\d\x7b1,3\x7d[\\s\\-]?\\(?\\d\x7b1,4\x7d\\)?[\\s\\-]?\\d\x7b3,4" ++
       "\x7d[\\s\\-]?\\d\x7b3,4\x7d"),
    directRule "DJL-PII-006" 4
      "\\b[A-Za-z0-9._%+\\-]+@[A-Za-z0-9.\\-]+\\.[A-Za-z]\x7b2,\x7d\\b",
    directRule "DJL-PII-007" 7
      "\\b[A-CEGHJ-PR-TW-Z]\x7b2\x7d\\d\x7b6\x7d[A-D]\\b",
    twoStageRule "DJL-PII-008" 6,
    directRule "DJL-PII-009" 4
      ("\\b(?:0?[1-9]|1[0-2])[\\/\\-](?:0?[1-9]|[12]\\d|3[01])[\\/\\-](?:19|20" ++
       ")\\d\x7b2\x7d\\b"),
    directRule "DJL-PII-010" 4
      ("\\b(?:(?:25[0-5]|2[0-4]\\d|[01]?\\d\\d?)\\.)\x7b3\x7d(?:25[0-5]|2[0-4]" ++
       "\\d|[01]?\\d\\d?)\\b"),
    directRule "DJL-EXF-001" 9
      "(?i)\\bdump\\b[^\\n]\x7b0,40\x7d\\b(?:database|db|table|schema)\\b",
    directRule "DJL-EXF-002" 8
      ("(?i)\\bexport\\s+(?:all\\s+|every\\s+)?(?:users?|customers?|records?|r" ++
       "ows?|emails?|accounts?)\\b"),
    directRule "DJL-EXF-003" 8
      ("(?i)\\blist\\s+every\\s+(?:record|user|customer|account|file|secret|cr" ++
       "edential|api[\\s\\-]?key)\\b"),
    directRule "DJL-EXF-004" 9
      ("(?i)\\b(?:send|post|forward|upload|exfiltrate|transmit)\\s+(?:this\\s+" ++
       "|that\\s+|the\\s+|all\\s+)?(?:data|results?|output|content|info(?:rmat" ++
       "ion)?)\\s+(?:to\\s+)?(?:https?://|ftp://|webhook|external|endpoint)"),
    directRule "DJL-EXF-005" 8
      ("(?i)\\b(?:curl|wget|nc|netcat|ncat|fetch|httpie)\\b[^\\n]\x7b0,80\x7d" ++
       "\\bhttps?://[A-Za-z0-9.\\-]+"),
    directRule "DJL-MIS-001" 10
      "(?i)\\brm\\s+(?:-[a-zA-Z]+\\s+)*-[a-zA-Z]*r[a-zA-Z]*f|\\brm\\s+-rf\\b",
    directRule "DJL-MIS-002" 10
      ("(?i)\\bdelete\\s+all\\s+(?:files?|records?|users?|accounts?|data|backu" ++
       "ps?)\\b"),
    directRule "DJL-MIS-003" 9
      ("(?i)(?:transfer|wire|send|pay|remit)\\b[^\\n]\x7b0,40\x7d(?:\\$|€|£|¥|" ++
       "USD|EUR|GBP|JPY)\\s*(?:\\d\x7b1,3\x7d(?:[,\\.]?\\d\x7b3\x7d)\x7b1,\x7d" ++
       "|[1-9]\\d\x7b4,\x7d)"),
    directRule "DJL-MIS-004" 8
      ("(?i)\\b(?:auto|automatically|silently|without\\s+(?:review|approval|co" ++
       "nfirmation))\\s+(?:merge|approve|deploy|push)\\b"),
    directRule "DJL-MIS-005" 9
      ("(?i)(?:\\bsyscall\\b|\\bkernel\\s+call\\b|/dev/(?:mem|kmem|sda|raw\\d*" ++
       ")|\\bioctl\\b|\\bmmap\\s*\\([^)]*PROT_EXEC)"),
    directRule "DJL-MIS-006" 8
      ("\\b(?:sudo|su\\s+(?:-\\s+)?root|setuid|chmod\\s+(?:[+u]?s|4[0-7]\x7b3" ++
       "\x7d)|setcap)\\b"),
    directRule "DJL-MIS-007" 10
      ":\\s*\\(\\s*\\)\\s*\\\x7b[^\x7d]*:\\s*\\|\\s*:[^\x7d]*\\\x7d\\s*;\\s*:",
    directRule "DJL-MIS-008" 10
      ("(?i)\\b(?:bash\\s+-i\\s+>&\\s*/dev/tcp|nc\\s+(?:-[a-z]+\\s+)?-e\\s+/bi" ++
       "n/(?:bash|sh)|/bin/(?:bash|sh)\\s+-i\\b)"),
    directRule "DJL-MIS-009" 9
      ("(?i)\\b(?:disable|turn\\s+off|stop|kill|uninstall)\\s+(?:the\\s+)?(?:f" ++
       "irewall|antivirus|edr|siem|monitoring|logging|audit)\\b"),
    directRule "DJL-MIS-010" 9
      ("(?i)\\b(?:eval|exec|system|popen|subprocess\\.(?:call|Popen|run))\\s*" ++
       "\\([^)]*(?:user|input|prompt|request|param)"),
    directRule "DJL-POL-001" 9
      ("(?i)\\b(?:initiate|process|approve)\\s+(?:wire\\s+)?transfer\\b[^\\n]" ++
       "\x7b0,80\x7d(?:\\$|€|£|¥|USD|EUR|GBP)\\s*(?:\\d\x7b1,3\x7d(?:[,\\.]?\\" ++
       "d\x7b3\x7d)\x7b2,\x7d|[1-9]\\d\x7b6,\x7d)"),
    directRule "DJL-POL-002" 9
      ("(?i)\\b(?:export|disclose|share|forward|send)\\b[^\\n]\x7b0,60\x7d\\b(" ++
       "?:phi|patient\\s+(?:records?|data|chart|history)|medical\\s+(?:records" ++
       "?|history)|diagnos[ie]s)\\b"),
    directRule "DJL-POL-003" 10
      ("\\b(?:TOP\\s+SECRET|TS//SCI|SECRET//(?:NOFORN|REL)|CONFIDENTIAL//(?:NO" ++
       "FORN|REL)|classified\\s+(?:information|data|material))\\b"),
    directRule "DJL-POL-004" 10
      ("(?i)\\b(?:store|save|persist|log|cache)\\b[^\\n]\x7b0,40\x7d\\b(?:cvv|" ++
       "cvc|cv2|cid|track[\\s\\-]?(?:1|2|data)|magnetic\\s+stripe|pan(?:\\s+da" ++
       "ta)?)\\b"),
    directRule "DJL-POL-005" 10
      ("(?i)\\b(?:open|close|trip|disable|bypass)\\s+(?:the\\s+)?(?:breaker|re" ++
       "lay|valve|safety[\\s\\-]?interlock|scada|plc|hmi|rtuP?)\\b"),
    directRule "DJL-HARM-001" 10
      ("(?i)\\b(?:how\\s+to\\s+(?:make|synth(?:esi[sz]e)?|cook|manufacture|pro" ++
       "duce)|step[s]?\\s+to\\s+(?:make|synth)|recipe\\s+for)\\s+(?:meth(?:amp" ++
       "hetamine)?|cocaine|crack|heroin|fentanyl|lsd|mdma|ecstasy|crystal|amph" ++
       "etamine|opioid|opium)\\b"),
    directRule "DJL-HARM-002" 10
      ("(?i)\\b(?:c[oó]mo\\s+(?:hacer|fabricar|sintetizar|cocinar|preparar|ela" ++
       "borar|producir)|pasos?\\s+para\\s+(?:hacer|fabricar)|receta\\s+(?:de|p" ++
       "ara))\\s+(?:coca[ií]na|crack|hero[ií]na|metanfetamina|fentanilo|[eé]xt" ++
       "asis|cristal|anfetamina|opi[oó]?ide|droga[s]?)\\b"),
    twoStageRule "DJL-HARM-003" 10,
    directRule "DJL-HARM-004" 10
      ("(?i)\\b(?:c[oó]mo\\s+(?:hacer|fabricar|construir|armar|ensamblar)|paso" ++
       "s?\\s+para\\s+(?:hacer|fabricar|construir)|receta\\s+(?:de|para))\\s+(" ++
       "?:una\\s+|un\\s+)?(?:bomba|explosivo|artefacto|arma\\s+(?:qu[ií]mica|b" ++
       "iol[oó]gica|de\\s+fuego|sin\\s+licencia)|silenciador|munici[oó]n\\s+ca" ++
       "sera)\\b"),
    directRule "DJL-HARM-005" 10
      ("(?i)\\b(?:how\\s+to\\s+(?:kill|murder|assassinate|harm|hurt|stab|poiso" ++
       "n|strangle|torture)|plan\\s+(?:to|for)\\s+(?:kill|murder|assassinate|a" ++
       "ttack)|ways?\\s+to\\s+(?:kill|murder|hurt|harm))\\s+(?:(?:a|an|the|my)" ++
       "\\s+)?(?:someone|people|person|child|kid|wife|husband|spouse|coworker|" ++
       "neighbor|family|partner|friend|colleague|stranger|victim)\\b"),
    directRule "DJL-HARM-006" 10
      ("(?i)\\b(?:c[oó]mo\\s+(?:matar|asesinar|herir|da[nñ]ar|envenenar|estran" ++
       "gular|torturar)|plan\\s+para\\s+(?:matar|asesinar|atacar|herir)|formas" ++
       "?\\s+de\\s+(?:matar|asesinar|herir))\\s+(?:a\\s+)?(?:alguien|una?\\s+p" ++
       "ersona|gente|ni[nñ]o|esposa?|c[oó]nyuge|compa[nñ]ero|vecino)\\b"),
    directRule "DJL-HARM-007" 9
      ("(?i)\\b(?:how\\s+to\\s+(?:hack|crack|brute[\\s\\-]?force|exploit|bypas" ++
       "s\\s+the\\s+login|breach|infiltrate|sql[\\s\\-]?inject)\\s+(?:into\\s+" ++
       "|a\\s+|an\\s+|the\\s+|someone(?:'s)?\\s+|my\\s+ex(?:'s)?\\s+|a\\s+stra" ++
       "nger(?:'s)?\\s+)?(?:account|password|credential|database|server|gmail|" ++
       "outlook|facebook|instagram|whatsapp|tiktok|router|wifi|network|system|" ++
       "website|webapp|wallet|2fa|mfa)|(?:crack|steal|brute[\\s\\-]?force)\\s+" ++
       "(?:the\\s+)?(?:passwords?|credentials?|2fa|mfa|otp|sessions?)|gain\\s+" ++
       "unauthorized\\s+access\\s+to)\\b"),
    directRule "DJL-HARM-008" 9
      ("(?i)\\b(?:c[oó]mo\\s+(?:hackear|crackear|romper|vulnerar|infiltrar|pen" ++
       "etrar|saltarse|saltar\\s+el\\s+login)|(?:hackear|crackear|robar|romper" ++
       ")\\s+(?:una?\\s+)?(?:cuenta|contrase[nñ]a|credencial|2fa|mfa|sesi[oó]n" ++
       "|sistema)|acceso\\s+(?:no\\s+autorizado|ilegal)\\s+a)\\b"),
    directRule "DJL-HARM-009" 9
      ("(?i)\\b(?:steal|exfiltrate|siphon|harvest|scrape\\s+(?:without\\s+perm" ++
       "ission|illegally))\\s+(?:user\\s+)?(?:data|information|records|databas" ++
       "e|personal\\s+info|customer\\s+data|emails?|contacts?)\\b|\\bwrite\\s+" ++
       "(?:a\\s+)?(?:program|script|tool|code)\\s+(?:to|that)\\s+(?:steal|exfi" ++
       "ltrate|siphon|harvest)\\b"),
    directRule "DJL-HARM-010" 9
      ("(?i)\\b(?:robar|extraer|exfiltrar|recopilar\\s+sin\\s+permiso|recolect" ++
       "ar\\s+ilegalmente)\\s+(?:los\\s+|las\\s+)?(?:datos|informaci[oó]n|regi" ++
       "stros?|base\\s+de\\s+datos|datos?\\s+(?:personales?|de\\s+usuarios?|de" ++
       "\\s+clientes?)|correos?|contactos?)\\b|\\b(?:crea[rs]?|escrib[ie]r?|ha" ++
       "c[ae]r?)\\s+(?:un\\s+)?(?:programa|script|herramienta|c[oó]digo|app)\\" ++
       "s+para\\s+(?:robar|extraer|exfiltrar)\\b"),
    directRule "DJL-HARM-011" 10
      ("(?i)\\b(?:how\\s+to\\s+(?:kill\\s+myself|commit\\s+suicide|end\\s+my\\" ++
       "s+life|self[\\s\\-]?harm)|c[oó]mo\\s+(?:suicidarme|matarme|terminar\\s" ++
       "+con\\s+mi\\s+vida|hacerme\\s+da[nñ]o)|m[eé]todo\\s+para\\s+suicid)"),
    directRule "DJL-HARM-012" 10
      ("(?i)\\b(?:sexual|erotic|nude|naked|undress)\\s+(?:content|imagery|imag" ++
       "es?|story|stories|description|fantasy)\\s+(?:of|with|featuring|involvi" ++
       "ng)\\s+(?:a\\s+|the\\s+)?(?:child|children|minor[s]?|kid[s]?|underage|" ++
       "teen(?:ager)?|infant)\\b|\\b(?:csam|child\\s+(?:porn|sexual))\\b"),
    directRule "DJL-HARM-013" 10
      ("(?i)\\b(?:how\\s+to\\s+(?:join|recruit\\s+for)|c[oó]mo\\s+(?:unirme|re" ++
       "clutar)\\s+a)\\s+(?:isis|al[\\s\\-]?qaeda|hamas|hezbollah|boko\\s+hara" ++
       "m|talib[aá]n|estado\\s+isl[aá]mico|a\\s+terrorist\\s+(?:cell|organizat" ++
       "ion|group)|una?\\s+(?:c[eé]lula|organizaci[oó]n)\\s+terrorista)\\b|\\b" ++
       "(?:plan(?:ning)?|planeando)\\s+(?:a\\s+|an\\s+|un\\s+)?(?:terrorist\\s" ++
       "+attack|atentado|ataque\\s+terrorista)\\b"),
    directRule "DJL-HARM-014" 9
      ("(?i)\\b(?:write|create|generate|draft|escrib[ie]r?|crea[rs]?|genera[rs" ++
       "]?)\\s+(?:a\\s+|an\\s+|un\\s+|una\\s+)?(?:hateful|racist|antisemitic|x" ++
       "enophobic|islamophobic|homophobic|transphobic|misogynist(?:ic)?|racist" ++
       "a|antisemita|xen[oó]fobo|hom[oó]fobo|tr[aá]nsfobo|mis[oó]gino)\\s+(?:r" ++
       "ant|manifesto|post|message|content|discurso|manifiesto|publicaci[oó]n|" ++
       "mensaje|contenido)\\b"),
    directRule "DJL-HARM-015" 10
      ("(?i)\\b(?:make|build|create|develop|write|code|design|generate)\\s+(?:" ++
       "a|an|the|some)?\\s*(?:program|app(?:lication)?|script|tool|software|ut" ++
       "ility|malware|virus|trojan|backdoor|keylogger|spyware|stealer|grabber|" ++
       "extension|bot|exploit|payload)s?\\s+(?:to|that|which|for|capable\\s+of" ++
       ")\\s+(?:steal|steel|grab|harvest|extract|exfiltrate|siphon|capture|sni" ++
       "ff|intercept|crack|brute[\\s\\-]?force|phish|skim|dump)s?\\s+(?:[\\w\\" ++
       "-]+\\s+)\x7b0,4\x7d?(?:passwords?|credentials?|tokens?|api[\\s\\-]?key" ++
       "s?|accounts?|sessions?|cookies?|cards?|wallets?|seed[\\s\\-]?phrases?|" ++
       "private[\\s\\-]?keys?|2fa|mfa|otps?|personal\\s+(?:data|info(?:rmation" ++
       ")?)|user\\s+(?:data|info(?:rmation)?)|customer\\s+(?:data|info(?:rmati" ++
       "on)?)|emails?|contacts?|database)\\b"),
    directRule "DJL-HARM-016" 10
      ("(?i)\\b(?:hac[ae]r?|crea[rs]?|construi[rs]?|desarrolla[rs]?|escrib[ie]" ++
       "r?|programa[rs]?|disen[aã]r?|dise[nñ]a[rs]?)\\s+(?:un|una|el|la|alg[uú" ++
       "]n|alguna)?\\s*(?:programa|app|aplicaci[oó]n|script|herramienta|softwa" ++
       "re|utilidad|malware|virus|troyano|backdoor|keylogger|spyware|extensi[o" ++
       "ó]n|bot|exploit)s?\\s+(?:para|que|capaz\\s+de)\\s+(?:roba[rs]?|extrae[" ++
       "rs]?|exfiltra[rs]?|captura[rs]?|interceptar?|crackear?|hackear?|sniffe" ++
       "a[rs]?|sustrae[rs]?)\\s+(?:[\\w\\-]+\\s+)\x7b0,4\x7d?(?:contrase[nñ]as" ++
       "?|credenciales?|tokens?|claves?\\s+api|cuentas?|sesion(?:es)?|cookies?" ++
       "|tarjetas?|wallets?|frases?\\s+semilla|claves?\\s+privadas?|2fa|mfa|da" ++
       "tos?\\s+(?:personales?|de\\s+usuarios?|de\\s+clientes?)|correos?|conta" ++
       "ctos?|bases?\\s+de\\s+datos)\\b")]

def patterns : List OwaspPattern :=
  [owaspPattern "asi01_bypass_safety_guardrails"
      "(?i)bypass\\s+(?:the\\s+)?safety\\s+guardrails?",
    owaspPattern "asi01_primary_goal_updated"
      ("(?i)your\\s+primary\\s+(?:goal|objective|directive)\\s+has\\s+been\\s+" ++
       "updated"),
    owaspPattern "asi01_compliance_audit_dump"
      ("(?is)(?:compliance|qa|engineering)\\s+(?:note|audit|review).\x7b0,80" ++
       "\x7d(?:dump|disclose|reveal|expose|produce).\x7b0,40\x7d(?:directives?" ++
       "|system[-\\s]?level|system\\s+prompt|prior\\s+instructions?)"),
    owaspPattern "asi01_new_core_directive_block"
      "(?i)new\\s+core\\s+(?:directive|objective|strategic\\s+directive)",
    owaspPattern "asi02_pre_authorized_owner"
      ("(?i)pre[-\\s]?authoriz(?:ed|ation)\\s+by\\s+(?:the\\s+)?(?:workspace\\" ++
       "s+)?(?:owner|admin|user|customer)"),
    owaspPattern "asi02_no_human_approval"
      ("(?i)no\\s+human\\s+(?:approval|review|sign[-\\s]?off)\\s+(?:needed|req" ++
       "uired)"),
    owaspPattern "asi02_curl_exfil_shell"
      ("(?i)curl\\s+(?:-[A-Za-z]+\\s+)*https?://[^\\s\\)\\]\"']+(?:[\\s\\S]" ++
       "\x7b0,200\x7d?)(?:\\$\\(env\\)|exfil|/etc/|payload|attacker)"),
    owaspPattern "asi02_env_subshell"
      "\\$\\(\\s*env\\s*\\)",
    owaspPattern "asi05_os_system_call"
      "(?i)os\\.system\\s*\\(",
    owaspPattern "asi05_subprocess_run_or_check_output"
      "(?i)subprocess\\.(?:check_output|run|Popen|call)\\s*\\(",
    owaspPattern "asi05_dunder_import_subprocess"
      "(?i)__import__\\s*\\(\\s*['\"]subprocess['\"]\\s*\\)",
    owaspPattern "asi05_drop_table_sql"
      "(?i)\\bDROP\\s+TABLE\\b",
    owaspPattern "asi05_etc_sensitive_path"
      "/etc/(?:shadow|passwd|sudoers|gshadow)\\b",
    owaspPattern "asi06_memory_update_block"
      "(?i)\\bMEMORY\\s+UPDATE\\b\\s*:",
    owaspPattern "asi06_persist_this_fact"
      ("(?i)(?:persist|save|store)\\s+this\\s+(?:fact|preference|context|infor" ++
       "mation|memory)\\s+(?:for|to|in)?\\s*(?:future|the\\s+next|shared|long[" ++
       "-\\s]?term|permanent(?:ly)?)"),
    owaspPattern "asi06_note_for_next_agent"
      ("(?i)(?:note|important\\s+context|context)\\s+(?:for|to)\\s+(?:the\\s+)" ++
       "?(?:next|downstream|future)\\s+agents?"),
    owaspPattern "asi06_ignore_prior_directives"
      ("(?i)ignore\\s+(?:any\\s+)?(?:prior|previous|earlier)\\s+(?:directives?" ++
       "|instructions?|validation|integrity)"),
    owaspPattern "asi10_agent_id_spoof"
      "(?i)agent_id\\s*[:=]\\s*[\"']?[A-Za-z][A-Za-z0-9_\\-]*",
    owaspPattern "asi10_override_safety_check"
      ("(?i)override\\s+(?:the\\s+)?(?:current\\s+)?(?:safety|security|policy|" ++
       "approval|review)\\s+(?:check|gate|workflow|policy)"),
    owaspPattern "asi10_disable_safety_gate"
      "(?i)disable\\s+(?:the\\s+)?(?:jcr\\s+)?(?:safety|security)\\s+gate",
    owaspPattern "asi10_authorization_level_token"
      "(?i)Authorization\\s*:\\s*level[-\\s]?\\d+",
    owaspPattern "bizemail_subject_urgent_actionverb"
      ("(?i)Subject\\s*:\\s*urgent\\s*:?[\\s\\S]\x7b0,2000\x7d?\\b(?:execute\\" ++
       "s+now|action\\s+required|deadline|EOD|by\\s+end\\s+of\\s+day|please\\s" ++
       "+confirm\\s+completion)\\b"),
    owaspPattern "bizemail_bot_to_ai_address"
      "(?i)From\\s*:\\s*\\S*(?:_Bot|_bot|Bot|Agent)\\s*\\[",
    owaspPattern "bizemail_to_ai_assistant_address"
      "(?i)To\\s*:\\s*\\S*(?:_AI|_ai|AI|Assistant|Agent)\\s*\\["]
def owaspMatchSeverity : Nat := 8

section

variable [CharTables] [RegexCrate]

def DjlRule.isMatch (rule : DjlRule) (text : Str) : Bool :=
  if rule.twoStage then ruleMatches rule.id text
  else (rule.regex.map fun regex => RegexCrate.isMatch regex text).getD false

omit [CharTables] in
def OwaspPattern.isMatch (pattern : OwaspPattern) (text : Str) : Bool :=
  RegexCrate.isMatch pattern.regex text

/-! ## The scan -/

/-- The name of a rule, and its severity. -/
abbrev Hit := Str × Nat

/-- The patterns of the set, each with what it stands for. -/
def preMatch : List (Str × Hit) :=
  (rules.filterMap fun rule =>
    rule.regex.map fun regex => (regex, rule.id, rule.severity)) ++
  patterns.map fun pattern => (pattern.regex, pattern.name, owaspMatchSeverity)

def consider (top : Option Hit) (hit : Hit) : Option Hit :=
  match top with
  | none => some hit
  | some worst => if hit.2 > worst.2 then some hit else some worst

/-- The hits of the set, in its order. -/
def setHits (text : Str) : List Hit :=
  (preMatch.filter fun entry => RegexCrate.isMatch entry.1 text).map Prod.snd

def twoStageHits (text : Str) : List Hit :=
  (rules.filter fun rule => rule.twoStage && ruleMatches rule.id text).map
    fun rule => (rule.id, rule.severity)

def hitReason (hit : Hit) : Str :=
  "firewall rule ".toList ++ hit.1 ++ " matched (severity ".toList ++
    (toString hit.2).toList ++ ")".toList

def scanContent (text : Str) (thresholds : Thresholds) : Verdict :=
  let top := (setHits text).foldl consider none
  let top := (twoStageHits text).foldl consider top
  match top with
  | none => .allow
  | some hit =>
      match severityToTier hit.2 thresholds with
      | .block => .block (hitReason hit)
      | .warn => .warn (hitReason hit)
      | .allow => .allow
      | .ask => .allow

/-- Some rule matches, on its own. -/
inductive Matches (text : Str) : Hit → Prop where
  | djl {rule : DjlRule} :
      rule ∈ rules → rule.isMatch text = true →
      Matches text (rule.id, rule.severity)
  | owasp {pattern : OwaspPattern} :
      pattern ∈ patterns → pattern.isMatch text = true →
      Matches text (pattern.name, owaspMatchSeverity)

variable {text : Str} {thresholds : Thresholds}

omit [CharTables] [RegexCrate] in
/-- Exactly the rules of two stages are left out of the set. -/
theorem twoStage_eq_isNone {rule : DjlRule} (known : rule ∈ rules) :
    rule.twoStage = rule.regex.isNone := by
  have each : ∀ rule ∈ rules, rule.twoStage = rule.regex.isNone := by decide
  exact each rule known

/-- The set and the rules of two stages find what the rules find one by one. -/
theorem mem_hits_iff {hit : Hit} :
    hit ∈ setHits text ++ twoStageHits text ↔ Matches text hit := by
  constructor
  · intro found
    rcases List.mem_append.mp found with inSet | staged
    · obtain ⟨entry, member, rfl⟩ := List.mem_map.mp inSet
      obtain ⟨member, matched⟩ := List.mem_filter.mp member
      rcases List.mem_append.mp member with direct | listed
      · obtain ⟨rule, known, here⟩ := List.mem_filterMap.mp direct
        obtain ⟨regex, given, rfl⟩ := Option.map_eq_some_iff.mp here
        apply Matches.djl known
        rw [DjlRule.isMatch, twoStage_eq_isNone known, given]
        exact matched
      · obtain ⟨pattern, known, rfl⟩ := List.mem_map.mp listed
        exact .owasp known matched
    · obtain ⟨rule, member, rfl⟩ := List.mem_map.mp staged
      obtain ⟨known, matched⟩ := List.mem_filter.mp member
      obtain ⟨twoStage, matched⟩ := Bool.and_eq_true_iff.mp matched
      apply Matches.djl known
      rw [DjlRule.isMatch, if_pos twoStage]
      exact matched
  · intro matched
    apply List.mem_append.mpr
    cases matched with
    | @owasp pattern known matched =>
        left
        apply List.mem_map.mpr
        refine ⟨(pattern.regex, pattern.name, owaspMatchSeverity),
          List.mem_filter.mpr ⟨?_, matched⟩, rfl⟩
        exact List.mem_append_right _ (List.mem_map_of_mem known)
    | @djl rule known matched =>
        rw [DjlRule.isMatch] at matched
        split_ifs at matched with twoStage
        · right
          apply List.mem_map.mpr
          refine ⟨rule, List.mem_filter.mpr ⟨known, ?_⟩, rfl⟩
          exact Bool.and_eq_true_iff.mpr ⟨twoStage, matched⟩
        · left
          cases given : rule.regex with
          | none => simp [given] at matched
          | some regex =>
              rw [given] at matched
              apply List.mem_map.mpr
              refine ⟨(regex, rule.id, rule.severity),
                List.mem_filter.mpr ⟨?_, matched⟩, rfl⟩
              apply List.mem_append_left
              exact List.mem_filterMap.mpr ⟨rule, known, by rw [given]; rfl⟩

omit [CharTables] [RegexCrate] in
theorem foldl_consider_eq_argmax (hits : List Hit) :
    hits.foldl consider none = hits.argmax Prod.snd := by
  apply List.foldl_ext
  intro top hit _
  cases top <;> rfl

/-- The worst hit decides. -/
theorem scanContent_cases (text : Str) (thresholds : Thresholds) :
    (∀ hit, ¬ Matches text hit) ∧ scanContent text thresholds = .allow ∨
      ∃ hit, Matches text hit ∧
        (∀ other, Matches text other → other.2 ≤ hit.2) ∧
        scanContent text thresholds =
          match severityToTier hit.2 thresholds with
          | .block => .block (hitReason hit)
          | .warn => .warn (hitReason hit)
          | .allow => .allow
          | .ask => .allow := by
  have top : (twoStageHits text).foldl consider
      ((setHits text).foldl consider none) =
        (setHits text ++ twoStageHits text).argmax Prod.snd := by
    rw [← List.foldl_append, foldl_consider_eq_argmax]
  rw [scanContent, top]
  cases worst : (setHits text ++ twoStageHits text).argmax Prod.snd with
  | none =>
      have empty := List.argmax_eq_none.mp worst
      left
      refine ⟨fun hit matched => ?_, rfl⟩
      exact List.not_mem_nil (empty ▸ mem_hits_iff.mpr matched)
  | some hit =>
      right
      refine ⟨hit, mem_hits_iff.mp (List.argmax_mem worst), ?_, rfl⟩
      intro other matched
      exact List.le_of_mem_argmax (mem_hits_iff.mpr matched) worst

theorem scanContent_block_iff :
    (scanContent text thresholds).tier = .block ↔
      ∃ hit, Matches text hit ∧ thresholds.blockAt ≤ hit.2 := by
  rcases scanContent_cases text thresholds with
    ⟨none, same⟩ | ⟨worst, matched, most, same⟩
  · rw [same]
    apply iff_of_false
    · exact Tier.noConfusion
    · rintro ⟨hit, matched, -⟩
      exact none hit matched
  · have graded : (scanContent text thresholds).tier = .block ↔
        severityToTier worst.2 thresholds = .block := by
      rw [same]
      cases severityToTier worst.2 thresholds <;> simp
    rw [graded, severityToTier_block_iff]
    constructor
    · intro severe
      exact ⟨worst, matched, severe⟩
    · rintro ⟨hit, found, severe⟩
      exact severe.trans (most hit found)

theorem scanContent_allow_iff :
    (scanContent text thresholds).tier = .allow ↔
      ∀ hit, Matches text hit →
        hit.2 < thresholds.blockAt ∧ hit.2 < thresholds.warnAt := by
  rcases scanContent_cases text thresholds with
    ⟨none, same⟩ | ⟨worst, matched, most, same⟩
  · rw [same]
    apply iff_of_true rfl
    intro hit matched
    exact absurd matched (none hit)
  · have graded : (scanContent text thresholds).tier = .allow ↔
        severityToTier worst.2 thresholds = .allow := by
      rw [same]
      cases grade : severityToTier worst.2 thresholds with
      | ask => exact absurd grade (severityToTier_ne_ask _ _)
      | _ => simp
    have mild : severityToTier worst.2 thresholds = .allow ↔
        worst.2 < thresholds.blockAt ∧ worst.2 < thresholds.warnAt := by
      unfold severityToTier
      split_ifs <;> simp <;> omega
    rw [graded, mild]
    constructor
    · rintro ⟨unblocked, unwarned⟩ hit found
      have most := most hit found
      exact ⟨by omega, by omega⟩
    · intro each
      exact each worst matched

theorem scanContent_ne_ask : (scanContent text thresholds).tier ≠ .ask := by
  rcases scanContent_cases text thresholds with ⟨-, same⟩ | ⟨worst, -, -, same⟩
  · rw [same]
    exact Tier.noConfusion
  · rw [same]
    cases severityToTier worst.2 thresholds <;> exact Tier.noConfusion

/-- The scan agrees with the rules one by one: it blocks or passes a text as the
worst of them does, and names one of the worst. -/
theorem scanContent_exact (text : Str) (thresholds : Thresholds) :
    ((scanContent text thresholds).tier = .block ↔
      ∃ hit, Matches text hit ∧ thresholds.blockAt ≤ hit.2) ∧
    ((scanContent text thresholds).tier = .allow ↔
      ∀ hit, Matches text hit →
        hit.2 < thresholds.blockAt ∧ hit.2 < thresholds.warnAt) ∧
    ((scanContent text thresholds).tier ≠ .allow →
      ∃ hit, Matches text hit ∧
        (∀ other, Matches text other → other.2 ≤ hit.2) ∧
        (scanContent text thresholds).reason = hitReason hit) := by
  refine ⟨scanContent_block_iff, scanContent_allow_iff, fun told => ?_⟩
  rcases scanContent_cases text thresholds with
    ⟨-, same⟩ | ⟨worst, matched, most, same⟩
  · exact absurd (congrArg Verdict.tier same) told
  · refine ⟨worst, matched, most, ?_⟩
    rw [same] at told ⊢
    cases grade : severityToTier worst.2 thresholds with
    | block => rfl
    | warn => rfl
    | allow => exact absurd (by rw [grade]; rfl) told
    | ask => exact absurd grade (severityToTier_ne_ask _ _)

end

/-! ## Fetching -/

inductive FetchTarget where
  | file (path : Str)
  | url (url : Str)
  deriving DecidableEq

inductive FetchError where
  | timeout
  | ssrf (rejected : SsrfRejected)
  | io (text : Str)
  deriving DecidableEq

def FetchError.display : FetchError → Str
  | .timeout => "fetch timed out".toList
  | .ssrf rejected => "SSRF refused: ".toList ++ rejected.reason
  | .io text => "fetch I/O error: ".toList ++ text

abbrev ContentSource := FetchTarget → Except FetchError Str

def maxFetchBytes : Nat := 1024 * 1024

/-- The bytes that a reader gives out, and the error that ends them, if any. -/
structure Reading (ε : Type) where
  bytes : List UInt8
  failure : Option ε

/-- `take(MAX_FETCH_BYTES)` and `read_to_end`; an error behind the limit is not
reached. -/
def Reading.upToLimit {ε : Type} (reading : Reading ε) :
    Except ε (List UInt8) :=
  match reading.failure with
  | none => .ok (reading.bytes.take maxFetchBytes)
  | some error =>
      if reading.bytes.length < maxFetchBytes then .error error
      else .ok (reading.bytes.take maxFetchBytes)

inductive ReadErrorKind where
  | timedOut
  | wouldBlock
  | other
  deriving DecidableEq

structure ReadError where
  kind : ReadErrorKind
  text : Str

def classifyIo (e : ReadError) : FetchError :=
  if e.kind = .timedOut ∨ e.kind = .wouldBlock then .timeout else .io e.text

inductive TransportKind where
  | io
  | dns
  | other
  deriving DecidableEq

structure Transport where
  kind : TransportKind
  text : Str

def classifyTransport (t : Transport) : FetchError :=
  if contains t.text ssrfMarker then
    .ssrf ⟨("resolved IP is internal " ++
      "(RFC1918/loopback/link-local/ULA/metadata)").toList⟩
  else
    match t.kind with
    | .io =>
        if contains (toAsciiLowercase t.text) "timed out".toList ∨
            contains (toAsciiLowercase t.text) "timeout".toList then .timeout
        else .io t.text
    | .dns => .io ("DNS: ".toList ++ t.text)
    | .other => .io t.text

/-- What a call of the client comes to. -/
inductive Reply where
  | response (body : Reading ReadError)
  | status (code : Nat)
  | transport (error : Transport)

/-- A call of the client asks the resolver for one host after the other, by the
redirects it meets, and comes to a reply. -/
inductive Call where
  | reply (reply : Reply)
  | resolve (netloc : Str) (next : Except IoError (List SocketAddr) → Call)

namespace Call

variable (resolver : Str → Except IoError (List SocketAddr))

def run : Call → Reply
  | .reply last => last
  | .resolve netloc next => (next (resolver netloc)).run

/-- The hosts that are asked for. -/
def asked : Call → List Str
  | .reply _ => []
  | .resolve netloc next => netloc :: (next (resolver netloc)).asked

end Call

/-- An error of the resolver ends the call, and its text is part of the text of
the transport error. -/
inductive Call.Relays : Call → Prop where
  | reply (reply : Reply) : Relays (.reply reply)
  | resolve {netloc : Str} {next : Except IoError (List SocketAddr) → Call}
      (fails : ∀ error, ∃ transport,
        next (.error error) = .reply (.transport transport) ∧
          error.text <:+: transport.text)
      (goesOn : ∀ addrs, Relays (next (.ok addrs))) :
      Relays (.resolve netloc next)

/-- The files and the network. -/
structure Outside where
  openFile : Str → Except Str (Reading Str)
  resolve : Resolver
  /-- `agent.get(url).call()`. -/
  get : Str → Call

namespace Outside

def readFilePrefix (outside : Outside) (path : Str) : Except FetchError Str :=
  match outside.openFile path with
  | .error text => .error (.io text)
  | .ok file =>
      match file.upToLimit with
      | .error text => .error (.io text)
      | .ok buf => .ok (fromUtf8Lossy buf)

def fetchUrl (outside : Outside) (url : Str) : Except FetchError Str :=
  match (outside.get url).run (ssrfResolver outside.resolve) with
  | .response body =>
      match body.upToLimit with
      | .error e => .error (classifyIo e)
      | .ok buf => .ok (fromUtf8Lossy buf)
  | .status code => .error (.io ("HTTP status ".toList ++ (toString code).toList))
  | .transport t => .error (classifyTransport t)

/-- `UreqSource`. -/
def fetch (outside : Outside) : ContentSource
  | .file path => outside.readFilePrefix path
  | .url url => outside.fetchUrl url

/-- The hosts that are asked for on the way to a URL. -/
def asked (outside : Outside) (url : Str) : List Str :=
  (outside.get url).asked (ssrfResolver outside.resolve)

end Outside

theorem classifyTransport_of_marked {t : Transport}
    (marked : ssrfMarker <:+: t.text) :
    ∃ rejected, classifyTransport t = .ssrf rejected := by
  have found : contains t.text ssrfMarker = true := decide_eq_true marked
  exact ⟨_, if_pos found⟩

theorem resolved_of_asked {resolve : Resolver} {call : Call}
    (relays : call.Relays) {body : Reading ReadError}
    (answered : call.run (ssrfResolver resolve) = .response body)
    {netloc : Str} (asked : netloc ∈ call.asked (ssrfResolver resolve)) :
    ∃ addrs, ssrfResolver resolve netloc = .ok addrs := by
  induction relays with
  | reply reply => cases asked
  | @resolve first next fails goesOn induction =>
      rw [Call.run] at answered
      rw [Call.asked] at asked
      cases resolved : ssrfResolver resolve first with
      | error error =>
          obtain ⟨transport, ended, -⟩ := fails error
          rw [resolved, ended] at answered
          cases answered
      | ok addrs =>
          rw [resolved] at answered asked
          rcases List.mem_cons.mp asked with rfl | later
          · exact ⟨addrs, resolved⟩
          · exact induction addrs answered later

theorem transport_of_internal {resolve : Resolver} {call : Call}
    (relays : call.Relays) {netloc : Str}
    (asked : netloc ∈ call.asked (ssrfResolver resolve))
    {addrs : List SocketAddr} (resolved : resolve netloc = .ok addrs)
    (mixed : ∃ addr ∈ addrs, Internal addr.ip) :
    ∃ transport, call.run (ssrfResolver resolve) = .transport transport ∧
      ssrfMarker <:+: transport.text := by
  induction relays with
  | reply reply => cases asked
  | @resolve first next fails goesOn induction =>
      rw [Call.run]
      rw [Call.asked] at asked
      rcases List.mem_cons.mp asked with rfl | later
      · obtain ⟨addr, member, rejected, refused, ended⟩ :=
          ssrfResolver_of_internal resolved mixed
        obtain ⟨transport, replied, within⟩ := fails _
        rw [ended, replied]
        refine ⟨transport, rfl, List.IsInfix.trans ?_ within⟩
        simp only [List.append_assoc]
        exact (List.prefix_append _ _).isInfix
      · cases found : ssrfResolver resolve first with
        | error error =>
            obtain ⟨transport, replied, -⟩ := fails error
            rw [found, replied] at later
            cases later
        | ok addrs =>
            rw [found] at later
            exact induction addrs later

/-- Content is fetched only by way of hosts that are public throughout, and a
host with an internal address, on whatever redirect it is met, refuses the
fetch. -/
theorem fetchUrl_guarded (outside : Outside) (url : Str)
    (relays : (outside.get url).Relays) :
    (∀ text, outside.fetchUrl url = .ok text → ∀ netloc ∈ outside.asked url,
      ∃ addrs, outside.resolve netloc = .ok addrs ∧ addrs ≠ [] ∧
        ∀ addr ∈ addrs, ¬ Internal addr.ip) ∧
    ∀ netloc ∈ outside.asked url, ∀ addrs,
      outside.resolve netloc = .ok addrs → (∃ addr ∈ addrs, Internal addr.ip) →
      ∃ rejected, outside.fetchUrl url = .error (.ssrf rejected) := by
  constructor
  · intro text fetched netloc asked
    cases answered : (outside.get url).run (ssrfResolver outside.resolve) with
    | response body =>
        obtain ⟨addrs, resolved⟩ := resolved_of_asked relays answered asked
        exact ⟨addrs, ssrfResolver_eq_ok_iff.mp resolved⟩
    | status code => simp [Outside.fetchUrl, answered] at fetched
    | transport t => simp [Outside.fetchUrl, answered] at fetched
  · intro netloc asked addrs resolved mixed
    obtain ⟨transport, answered, marked⟩ :=
      transport_of_internal relays asked resolved mixed
    obtain ⟨rejected, classified⟩ := classifyTransport_of_marked marked
    refine ⟨rejected, ?_⟩
    rw [Outside.fetchUrl, answered]
    exact congrArg Except.error classified

/-- Two hosts, the second of which is met by a redirect and is internal. -/
def redirected : Outside where
  openFile _ := .error []
  resolve netloc :=
    if netloc = ['a'] then .ok [⟨.v4 ⟨93, 184, 216, 34⟩, 443⟩]
    else .ok [⟨.v4 ⟨127, 0, 0, 1⟩, 443⟩]
  get _ := .resolve ['a'] fun
    | .error error => .reply (.transport ⟨.dns, error.text⟩)
    | .ok _ => .resolve ['b'] fun
        | .error error => .reply (.transport ⟨.dns, error.text⟩)
        | .ok _ => .reply (.response ⟨[], none⟩)

theorem relays_redirected : (redirected.get []).Relays := by
  apply Call.Relays.resolve
  · intro error
    exact ⟨_, rfl, List.infix_refl _⟩
  · intro addrs
    apply Call.Relays.resolve
    · intro error
      exact ⟨_, rfl, List.infix_refl _⟩
    · intro addrs
      exact .reply _

theorem fetchUrl_guarded_redirected :
    ∃ rejected, redirected.fetchUrl [] = .error (.ssrf rejected) :=
  (fetchUrl_guarded redirected [] relays_redirected).2 ['b'] (by decide)
    [⟨.v4 ⟨127, 0, 0, 1⟩, 443⟩] (by decide)
    ⟨_, List.mem_singleton_self _, exists_error_iff.mp ⟨_, rfl⟩⟩

end TrustLayer.AgentGuard.Firewall
