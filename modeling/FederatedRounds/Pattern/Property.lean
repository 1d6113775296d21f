import FederatedRounds.Pattern.CharSet
/-! Sets of characters by the names of their properties: general categories, scripts and others.
Names count without regard to case, blanks, hyphens and underscores. Of the characters beyond ASCII
only letters, digits and white space have properties. -/
namespace FederatedRounds.Pattern

/-- A name in the spelling that is looked up: an `is` before it does not count. -/
def plainName (name : List Char) : String :=
  let isPart (c : Char) : Bool := c.val < 128 && c ≠ ' ' && c ≠ '_' && c ≠ '-'
  let spell (name : List Char) : String :=
    String.ofList ((name.filter isPart).map Char.toLower)
  match name with
  | i :: s :: rest =>
    if (i = 'i' ∨ i = 'I') ∧ (s = 's' ∨ s = 'S') then
      if spell rest = "c" then "isc" else spell rest
    else spell name
  | name => spell name

def capitals : CharSet := .range 'A' 'Z'

def smalls : CharSet := .range 'a' 'z'

def beyond : CharSet := .complement (.range '\x00' '\x7f')

def letters : CharSet :=
  .union (.union capitals smalls) (.difference (.intersection (.kind .word) beyond) (.kind .digit))

def hexDigits : CharSet := .unions [.range '0' '9', .range 'a' 'f', .range 'A' 'F']

def controls : CharSet := .union (.range '\x00' '\x1f') (.range '\x7f' '\u009f')

def marks : CharSet := .ofChars "!\"#%&'()*,-./:;?@[\\]_\x7b\x7d"

def signs : CharSet := .ofChars "$+<=>^`|~"

/-- The general categories, by their names in the two usual spellings. -/
def categories : List (List String × CharSet) :=
  [(["any"], .all), (["assigned"], .all), (["ascii"], .range '\x00' '\x7f'),
   (["l", "letter"], letters), (["lc", "casedletter"], .union capitals smalls),
   (["lu", "uppercaseletter"], capitals), (["ll", "lowercaseletter"], smalls),
   (["lo", "otherletter"], .intersection letters beyond), (["lt", "titlecaseletter"], .nothing),
   (["lm", "modifierletter"], .nothing), (["m", "mark", "combiningmark"], .nothing),
   (["mc", "spacingmark"], .nothing), (["me", "enclosingmark"], .nothing),
   (["mn", "nonspacingmark"], .nothing), (["n", "number"], .kind .digit),
   (["nd", "decimalnumber", "digit"], .kind .digit), (["nl", "letternumber"], .nothing),
   (["no", "othernumber"], .nothing), (["p", "punctuation", "punct"], marks),
   (["pc", "connectorpunctuation"], .ofChar '_'), (["pd", "dashpunctuation"], .ofChar '-'),
   (["ps", "openpunctuation"], .ofChars "([\x7b"), (["pe", "closepunctuation"], .ofChars ")]\x7d"),
   (["pi", "initialpunctuation"], .nothing), (["pf", "finalpunctuation"], .nothing),
   (["po", "otherpunctuation"], .ofChars "!\"#%&'*,./:;?@\\"), (["s", "symbol"], signs),
   (["sm", "mathsymbol"], .ofChars "+<=>|~"), (["sc", "currencysymbol"], .ofChar '$'),
   (["sk", "modifiersymbol"], .ofChars "^`"), (["so", "othersymbol"], .nothing),
   (["z", "separator"], .difference (.kind .blank) controls),
   (["zs", "spaceseparator"], .difference (.kind .blank) controls),
   (["zl", "lineseparator"], .ofChar '\u2028'), (["zp", "paragraphseparator"], .ofChar '\u2029'),
   (["c", "other"], controls), (["cc", "control", "cntrl"], controls), (["cf", "format"], .nothing),
   (["cn", "unassigned"], .nothing), (["co", "privateuse"], .nothing)]

def properties : List (List String × CharSet) :=
  [(["alphabetic", "alpha"], letters), (["uppercase", "upper"], capitals),
   (["lowercase", "lower"], smalls), (["cased"], .union capitals smalls),
   (["caseignorable", "ci"], .ofChars "'.:^`"), (["changeswhenlowercased", "cwl"], capitals),
   (["changeswhenuppercased", "cwu"], smalls), (["changeswhentitlecased", "cwt"], smalls),
   (["changeswhencasefolded", "cwcf"], capitals),
   (["changeswhencasemapped", "cwcm"], .union capitals smalls),
   (["whitespace", "wspace", "space"], .kind .blank),
   (["asciihexdigit", "ahex"], hexDigits), (["hexdigit", "hex"], hexDigits),
   (["idstart", "ids"], letters), (["xidstart", "xids"], letters),
   (["idcontinue", "idc"], .kind .word), (["xidcontinue", "xidc"], .kind .word),
   (["math"], .ofChars "+<=>^|~"), (["dash"], .ofChar '-'), (["hyphen"], .ofChar '-'),
   (["quotationmark", "qmark"], .ofChars "\"'"), (["diacritic", "dia"], .ofChars "^`"),
   (["terminalpunctuation", "term"], .ofChars "!,.:;?"),
   (["sentenceterminal", "sterm"], .ofChars "!.?"),
   (["patternsyntax", "patsyn"], .difference (.union marks signs) (.ofChar '_')),
   (["patternwhitespace", "patws"], .union (.range '\t' '\r') (.ofChar ' ')),
   (["graphemebase", "grbase"], .difference .all controls),
   (["graphemeextend", "grext"], .nothing), (["softdotted", "sd"], .ofChars "ij"),
   (["emoji"], .union (.ofChars "#*") (.range '0' '9')),
   (["emojicomponent"], .union (.ofChars "#*") (.range '0' '9')), (["extender", "ext"], .nothing),
   (["emojipresentation"], .nothing), (["emojimodifier"], .nothing),
   (["extendedpictographic"], .nothing), (["ideographic", "ideo"], .nothing),
   (["joincontrol", "joinc"], .nothing), (["variationselector", "vs"], .nothing),
   (["defaultignorablecodepoint", "di"], .nothing),
   (["noncharactercodepoint", "nchar"], .nothing), (["radical"], .nothing)]

/-- Scripts without a character in ASCII, by long and short names. -/
def otherScripts : List String :=
  ["adlam", "adlm", "ahom", "arab", "arabic", "armenian", "armi", "armn", "avestan", "avst", "bali",
   "balinese", "bamu", "bamum", "bassavah", "bass", "batak", "batk", "beng", "bengali", "bhaiksuki",
   "bhks", "bopo", "bopomofo", "brah", "brahmi", "brai", "braille", "bugi", "buginese", "buhd",
   "buhid", "cakm", "canadianaboriginal", "cans", "cari", "carian", "chakma", "cham", "cher",
   "cherokee", "copt", "coptic", "cprt", "cuneiform", "cypriot", "cyrillic", "cyrl", "deseret",
   "deva", "devanagari", "dsrt", "egyp", "egyptianhieroglyphs", "ethi", "ethiopic", "geor",
   "georgian", "glag", "glagolitic", "goth", "gothic", "grek", "greek", "gujarati", "gujr",
   "gurmukhi", "guru", "han", "hang", "hangul", "hani", "hano", "hanunoo", "hebr", "hebrew", "hira",
   "hiragana", "imperialaramaic", "inherited", "java", "javanese", "kana", "kannada", "katakana",
   "kayahli", "khmer", "khmr", "knda", "lao", "laoo", "lepc", "lepcha", "limb", "limbu", "linb",
   "linearb", "lisu", "malayalam", "mlym", "mong", "mongolian", "mtei", "meeteimayek", "mymr",
   "myanmar", "nko", "nkoo", "ogam", "ogham", "olchiki", "olck", "oriya", "orya", "osge", "osage",
   "phoenician", "phnx", "runic", "runr", "samaritan", "samr", "saur", "saurashtra", "shavian",
   "shaw", "sinh", "sinhala", "sund", "sundanese", "syrc", "syriac", "tagalog", "tale", "taile",
   "tamil", "taml", "telu", "telugu", "tfng", "tglg", "thaa", "thaana", "thai", "tibetan", "tibt",
   "tifinagh", "ugar", "ugaritic", "vai", "vaii", "yi", "yiii", "qaai", "zinh"]

def script? (name : String) : Option CharSet :=
  if name = "latin" ∨ name = "latn" then some (.union capitals smalls)
  else if name = "common" ∨ name = "zyyy" then
    some (.difference (.range '\x00' '\x7f') (.union capitals smalls))
  else if otherScripts.contains name then some .nothing
  else none

def lookUp? (table : List (List String × CharSet)) (name : String) : Option CharSet :=
  (table.find? fun entry => entry.1.contains name).map (·.2)

def property? (name : String) : Option CharSet :=
  (lookUp? properties name).or ((lookUp? categories name).or (script? name))

/-- The set that a value of a property has. -/
def propertyValue? (name value : String) : Option CharSet :=
  if name = "gc" ∨ name = "generalcategory" then lookUp? categories value
  else if ["sc", "script", "scx", "scriptextensions"].contains name then script? value
  else none

/-- The set that the text of a property spells: a name, or a name and a value with a colon, an
equals sign or the two marks of an inequality between them. -/
def propertySet? (text : List Char) : Option CharSet :=
  let rec unequal? (done : List Char) : List Char → Option (List Char × List Char)
    | '!' :: '=' :: rest => some (done.reverse, rest)
    | c :: rest => unequal? (c :: done) rest
    | [] => none
  let value? (mark : Char) : Option (List Char × List Char) :=
    match text.span (· ≠ mark) with
    | (name, _ :: value) => some (name, value)
    | _ => none
  match unequal? [] text with
  | some (name, value) => (propertyValue? (plainName name) (plainName value)).map .complement
  | none =>
    match (value? ':').or (value? '=') with
    | some (name, value) => propertyValue? (plainName name) (plainName value)
    | none => property? (plainName text)

end FederatedRounds.Pattern
