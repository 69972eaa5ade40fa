import Relevanced.Foundation.Utf8
import Relevanced.Models

/-!
# StopwordFilter

Words of at most two bytes are stopwords in every language, and so are the listed words
of the language. A language without a list has the English one.
-/

namespace Relevanced.Stopwords

open Foundation
open Models

set_option autoImplicit false

def englishStopwords : List String :=
  ["a", "about", "above", "after", "again", "against", "all", "am", "an", "and", "any", "are",
    "as", "at", "be", "because", "been", "before", "being", "below", "between", "both", "but",
    "by", "can", "did", "do", "does", "doing", "don", "down", "during", "each", "few", "for",
    "from", "further", "had", "has", "have", "having", "he", "her", "here", "hers", "herself",
    "him", "himself", "his", "how", "i", "if", "in", "into", "is", "it", "its", "itself", "just",
    "me", "more", "most", "my", "myself", "no", "nor", "not", "now", "of", "off", "on", "once",
    "only", "or", "other", "our", "ours", "ourselves", "out", "over", "own", "s", "same", "she",
    "should", "so", "some", "such", "t", "than", "that", "the", "their", "theirs", "them",
    "themselves", "then", "there", "these", "they", "this", "those", "through", "to", "too",
    "under", "until", "up", "very", "was", "we", "were", "what", "when", "where", "which",
    "while", "who", "whom", "why", "will", "with", "you", "your", "yours", "yourself",
    "yourselves"]

def frenchStopwords : List String :=
  ["au", "aux", "avec", "ce", "ces", "dans", "de", "des", "du", "elle", "en", "et", "eux", "il",
    "je", "la", "le", "leur", "lui", "ma", "mais", "me", "même", "mes", "moi", "mon", "ne", "nos",
    "notre", "nous", "on", "ou", "par", "pas", "pour", "qu", "que", "qui", "sa", "se", "ses",
    "son", "sur", "ta", "te", "tes", "toi", "ton", "tu", "un", "une", "vos", "votre", "vous", "c",
    "d", "j", "l", "à", "m", "n", "s", "t", "y", "été", "étée", "étées", "étés", "étant",
    "étante", "étants", "étantes", "suis", "es", "est", "sommes", "êtes", "sont", "serai",
    "seras", "sera", "serons", "serez", "seront", "serais", "serait", "serions", "seriez",
    "seraient", "étais", "était", "étions", "étiez", "étaient", "fus", "fut", "fûmes", "fûtes",
    "furent", "sois", "soit", "soyons", "soyez", "soient", "fusse", "fusses", "fût", "fussions",
    "fussiez", "fussent", "ayant", "ayante", "ayantes", "ayants", "eu", "eue", "eues", "eus",
    "ai", "as", "avons", "avez", "ont", "aurai", "auras", "aura", "aurons", "aurez", "auront",
    "aurais", "aurait", "aurions", "auriez", "auraient", "avais", "avait", "avions", "aviez",
    "avaient", "eut", "eûmes", "eûtes", "eurent", "aie", "aies", "ait", "ayons", "ayez", "aient",
    "eusse", "eusses", "eût", "eussions", "eussiez", "eussent"]

def germanStopwords : List String :=
  ["aber", "alle", "allem", "allen", "aller", "alles", "als", "also", "am", "an", "ander",
    "andere", "anderem", "anderen", "anderer", "anderes", "anderm", "andern", "anderr", "anders",
    "auch", "auf", "aus", "bei", "bin", "bis", "bist", "da", "damit", "dann", "der", "den", "des",
    "dem", "die", "das", "daß", "derselbe", "derselben", "denselben", "desselben", "demselben",
    "dieselbe", "dieselben", "dasselbe", "dazu", "dein", "deine", "deinem", "deinen", "deiner",
    "deines", "denn", "derer", "dessen", "dich", "dir", "du", "dies", "diese", "diesem", "diesen",
    "dieser", "dieses", "doch", "dort", "durch", "ein", "eine", "einem", "einen", "einer",
    "eines", "einig", "einige", "einigem", "einigen", "einiger", "einiges", "einmal", "er", "ihn",
    "ihm", "es", "etwas", "euer", "eure", "eurem", "euren", "eurer", "eures", "für", "gegen",
    "gewesen", "hab", "habe", "haben", "hat", "hatte", "hatten", "hier", "hin", "hinter", "ich",
    "mich", "mir", "ihr", "ihre", "ihrem", "ihren", "ihrer", "ihres", "euch", "im", "in", "indem",
    "ins", "ist", "jede", "jedem", "jeden", "jeder", "jedes", "jene", "jenem", "jenen", "jener",
    "jenes", "jetzt", "kann", "kein", "keine", "keinem", "keinen", "keiner", "keines", "können",
    "könnte", "machen", "man", "manche", "manchem", "manchen", "mancher", "manches", "mein",
    "meine", "meinem", "meinen", "meiner", "meines", "mit", "muss", "musste", "nach", "nicht",
    "nichts", "noch", "nun", "nur", "ob", "oder", "ohne", "sehr", "sein", "seine", "seinem",
    "seinen", "seiner", "seines", "selbst", "sich", "sie", "ihnen", "sind", "so", "solche",
    "solchem", "solchen", "solcher", "solches", "soll", "sollte", "sondern", "sonst", "über",
    "um", "und", "uns", "unse", "unsem", "unsen", "unser", "unses", "unter", "viel", "vom", "von",
    "vor", "während", "war", "waren", "warst", "was", "weg", "weil", "weiter", "welche",
    "welchem", "welchen", "welcher", "welches", "wenn", "werde", "werden", "wie", "wieder",
    "will", "wir", "wird", "wirst", "wo", "wollen", "wollte", "würde", "würden", "zu", "zum",
    "zur", "zwar", "zwischen"]

def italianStopwords : List String :=
  ["ad", "al", "allo", "ai", "agli", "all", "agl", "alla", "alle", "con", "col", "coi", "da",
    "dal", "dallo", "dai", "dagli", "dall", "dagl", "dalla", "dalle", "di", "del", "dello", "dei",
    "degli", "dell", "degl", "della", "delle", "in", "nel", "nello", "nei", "negli", "nell",
    "negl", "nella", "nelle", "su", "sul", "sullo", "sui", "sugli", "sull", "sugl", "sulla",
    "sulle", "per", "tra", "contro", "io", "tu", "lui", "lei", "noi", "voi", "loro", "mio", "mia",
    "miei", "mie", "tuo", "tua", "tuoi", "tue", "suo", "sua", "suoi", "sue", "nostro", "nostra",
    "nostri", "nostre", "vostro", "vostra", "vostri", "vostre", "mi", "ti", "ci", "vi", "lo",
    "la", "li", "le", "gli", "ne", "il", "un", "uno", "una", "ma", "ed", "se", "perché", "anche",
    "come", "dov", "dove", "che", "chi", "cui", "non", "più", "quale", "quanto", "quanti",
    "quanta", "quante", "quello", "quelli", "quella", "quelle", "questo", "questi", "questa",
    "queste", "si", "tutto", "tutti", "a", "c", "e", "i", "l", "o", "ho", "hai", "ha", "abbiamo",
    "avete", "hanno", "abbia", "abbiate", "abbiano", "avrò", "avrai", "avrà", "avremo", "avrete",
    "avranno", "avrei", "avresti", "avrebbe", "avremmo", "avreste", "avrebbero", "avevo", "avevi",
    "aveva", "avevamo", "avevate", "avevano", "ebbi", "avesti", "ebbe", "avemmo", "aveste",
    "ebbero", "avessi", "avesse", "avessimo", "avessero", "avendo", "avuto", "avuta", "avuti",
    "avute", "sono", "sei", "è", "siamo", "siete", "sia", "siate", "siano", "sarò", "sarai",
    "sarà", "saremo", "sarete", "saranno", "sarei", "saresti", "sarebbe", "saremmo", "sareste",
    "sarebbero", "ero", "eri", "era", "eravamo", "eravate", "erano", "fui", "fosti", "fu",
    "fummo", "foste", "furono", "fossi", "fosse", "fossimo", "fossero", "essendo", "faccio",
    "fai", "facciamo", "fanno", "faccia", "facciate", "facciano", "farò", "farai", "farà",
    "faremo", "farete", "faranno", "farei", "faresti", "farebbe", "faremmo", "fareste",
    "farebbero", "facevo", "facevi", "faceva", "facevamo", "facevate", "facevano", "feci",
    "facesti", "fece", "facemmo", "faceste", "fecero", "facessi", "facesse", "facessimo",
    "facessero", "facendo", "sto", "stai", "sta", "stiamo", "stanno", "stia", "stiate", "stiano",
    "starò", "starai", "starà", "staremo", "starete", "staranno", "starei", "staresti",
    "starebbe", "staremmo", "stareste", "starebbero", "stavo", "stavi", "stava", "stavamo",
    "stavate", "stavano", "stetti", "stesti", "stette", "stemmo", "steste", "stettero", "stessi",
    "stesse", "stessimo", "stessero", "stando"]

def russianStopwords : List String :=
  ["и", "в", "во", "не", "что", "он", "на", "я", "с", "со", "как", "а", "то", "все", "она", "так",
    "его", "но", "да", "ты", "к", "у", "же", "вы", "за", "бы", "по", "только", "ее", "мне",
    "было", "вот", "от", "меня", "еще", "нет", "о", "из", "ему", "теперь", "когда", "даже", "ну",
    "вдруг", "ли", "если", "уже", "или", "ни", "быть", "был", "него", "до", "вас", "нибудь",
    "опять", "уж", "вам", "ведь", "там", "потом", "себя", "ничего", "ей", "может", "они", "тут",
    "где", "есть", "надо", "ней", "для", "мы", "тебя", "их", "чем", "была", "сам", "чтоб", "без",
    "будто", "чего", "раз", "тоже", "себе", "под", "будет", "ж", "тогда", "кто", "этот", "того",
    "потому", "этого", "какой", "совсем", "ним", "здесь", "этом", "один", "почти", "мой", "тем",
    "чтобы", "нее", "сейчас", "были", "куда", "зачем", "всех", "никогда", "можно", "при",
    "наконец", "два", "об", "другой", "хоть", "после", "над", "больше", "тот", "через", "эти",
    "нас", "про", "всего", "них", "какая", "много", "разве", "три", "эту", "моя", "впрочем",
    "хорошо", "свою", "этой", "перед", "иногда", "лучше", "чуть", "том", "нельзя", "такой", "им",
    "более", "всегда", "конечно", "всю", "между"]

def spanishStopwords : List String :=
  ["de", "la", "que", "el", "en", "y", "a", "los", "del", "se", "las", "por", "un", "para", "con",
    "no", "una", "su", "al", "lo", "como", "más", "pero", "sus", "le", "ya", "o", "este", "sí",
    "porque", "esta", "entre", "cuando", "muy", "sin", "sobre", "también", "me", "hasta", "hay",
    "donde", "quien", "desde", "todo", "nos", "durante", "todos", "uno", "les", "ni", "contra",
    "otros", "ese", "eso", "ante", "ellos", "e", "esto", "mí", "antes", "algunos", "qué", "unos",
    "yo", "otro", "otras", "otra", "él", "tanto", "esa", "estos", "mucho", "quienes", "nada",
    "muchos", "cual", "poco", "ella", "estar", "estas", "algunas", "algo", "nosotros", "mi",
    "mis", "tú", "te", "ti", "tu", "tus", "ellas", "nosotras", "vosostros", "vosostras", "os",
    "mío", "mía", "míos", "mías", "tuyo", "tuya", "tuyos", "tuyas", "suyo", "suya", "suyos",
    "suyas", "nuestro", "nuestra", "nuestros", "nuestras", "vuestro", "vuestra", "vuestros",
    "vuestras", "esos", "esas", "estoy", "estás", "está", "estamos", "estáis", "están", "esté",
    "estés", "estemos", "estéis", "estén", "estaré", "estarás", "estará", "estaremos", "estaréis",
    "estarán", "estaría", "estarías", "estaríamos", "estaríais", "estarían", "estaba", "estabas",
    "estábamos", "estabais", "estaban", "estuve", "estuviste", "estuvo", "estuvimos",
    "estuvisteis", "estuvieron", "estuviera", "estuvieras", "estuviéramos", "estuvierais",
    "estuvieran", "estuviese", "estuvieses", "estuviésemos", "estuvieseis", "estuviesen",
    "estando", "estado", "estada", "estados", "estadas", "estad", "he", "has", "ha", "hemos",
    "habéis", "han", "haya", "hayas", "hayamos", "hayáis", "hayan", "habré", "habrás", "habrá",
    "habremos", "habréis", "habrán", "habría", "habrías", "habríamos", "habríais", "habrían",
    "había", "habías", "habíamos", "habíais", "habían", "hube", "hubiste", "hubo", "hubimos",
    "hubisteis", "hubieron", "hubiera", "hubieras", "hubiéramos", "hubierais", "hubieran",
    "hubiese", "hubieses", "hubiésemos", "hubieseis", "hubiesen", "habiendo", "habido", "habida",
    "habidos", "habidas", "soy", "eres", "es", "somos", "sois", "son", "sea", "seas", "seamos",
    "seáis", "sean", "seré", "serás", "será", "seremos", "seréis", "serán", "sería", "serías",
    "seríamos", "seríais", "serían", "era", "eras", "éramos", "erais", "eran", "fui", "fuiste",
    "fue", "fuimos", "fuisteis", "fueron", "fuera", "fueras", "fuéramos", "fuerais", "fueran",
    "fuese", "fueses", "fuésemos", "fueseis", "fuesen", "sintiendo", "sentido", "sentida",
    "sentidos", "sentidas", "siente", "sentid", "tengo", "tienes", "tiene", "tenemos", "tenéis",
    "tienen", "tenga", "tengas", "tengamos", "tengáis", "tengan", "tendré", "tendrás", "tendrá",
    "tendremos", "tendréis", "tendrán", "tendría", "tendrías", "tendríamos", "tendríais",
    "tendrían", "tenía", "tenías", "teníamos", "teníais", "tenían", "tuve", "tuviste", "tuvo",
    "tuvimos", "tuvisteis", "tuvieron", "tuviera", "tuvieras", "tuviéramos", "tuvierais",
    "tuvieran", "tuviese", "tuvieses", "tuviésemos", "tuvieseis", "tuviesen", "teniendo",
    "tenido", "tenida", "tenidos", "tenidas", "tened"]

/-- `stopwordSet.count(word) > 0`. -/
def listed (stopwordSet : List String) (word : Bytes) : Bool :=
  stopwordSet.any fun text => Utf8.ofText text = word

def stopwordSet : Language → List String
  | .de => germanStopwords
  | .en => englishStopwords
  | .es => spanishStopwords
  | .fr => frenchStopwords
  | .it => italianStopwords
  | .ru => russianStopwords
  | _ => englishStopwords

def isStopword (word : Bytes) (lang : Language) : Bool :=
  if word.length ≤ 2 then true else listed (stopwordSet lang) word

theorem listed_short (lang : Language) :
    ∀ text ∈ stopwordSet lang, (Utf8.ofText text).length ≤ 22 ∧ 0 ∉ Utf8.ofText text := by
  have english : ∀ text ∈ englishStopwords,
      (Utf8.ofText text).length ≤ 22 ∧ 0 ∉ Utf8.ofText text := by
    decide +kernel
  cases lang with
  | en => exact english
  | other => exact english
  | unlisted value => exact english
  | de => decide +kernel
  | es => decide +kernel
  | fr => decide +kernel
  | it => decide +kernel
  | ru => decide +kernel

theorem listed_word {lang : Language} {word : Bytes}
    (isListed : listed (stopwordSet lang) word = true) :
    word.length ≤ 22 ∧ 0 ∉ word := by
  obtain ⟨text, member, same⟩ := List.any_eq_true.mp isListed
  rw [← of_decide_eq_true same]
  exact listed_short lang text member

end Relevanced.Stopwords
