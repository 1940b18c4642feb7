import SqlComposer.Text.Words

/-!
# English plurals

The plural of a lower-case English word, by a table of irregular nouns, a list of words without a
plural, and rules on how the word ends. A word that is already a plural keeps its form.
-/

namespace SqlComposer.Inflection

/-! ### Endings -/

/-- One place of an ending. -/
inductive Letter where
  | one (c : Char)
  | oneOf (cs : Text)
  | noneOf (cs : Text)
  | beyondAscii

/-- Whether a character may stand in a place; the long s counts as an s. -/
def Letter.accepts (l : Letter) (c : Char) : Bool :=
  let c := if c == 'ſ' then 's' else c
  match l with
  | .one d => c == d
  | .oneOf ds => ds.contains c
  | .noneOf ds => !ds.contains c
  | .beyondAscii => 128 ≤ c.toNat

/-- Where in the word an ending may begin. -/
inductive Start where
  | anywhere
  | atWordStart
  | atBeginning

/-- A way to form a plural: the word ends in one of `stems`, then in one of `endings`; the ending
gives way to `plural`. -/
structure Rule where
  stems : List (List Letter)
  endings : List Text
  plural : Text
  start : Start := .anywhere

/-- Whether a character continues a word: a letter, a decimal digit, an underscore, or the dot that
the lower-case form of the dotted capital i carries. Other numbers, such as superscripts, do not. -/
def isWordChar (c : Char) : Bool :=
  c == '_' || c.toNat == 0x307 || CharClass.isAlphabetic c || CharClass.isDecimalDigit c

/-- Whether an ending may begin after `head`. -/
def Start.allows (s : Start) (head : Text) : Bool :=
  match s with
  | .anywhere => true
  | .atBeginning => head.isEmpty
  | .atWordStart =>
    match head.getLast? with
    | some c => !isWordChar c
    | none => true

/-- What remains of a word in front of places that its end fills, if it does. -/
def stripLetters (places : List Letter) (word : Text) : Option Text :=
  let n := word.length - places.length
  let tail := word.drop n
  if tail.length == places.length && (places.zip tail).all (fun p => p.1.accepts p.2) then
    some (word.take n)
  else none

/-- The plural that a rule gives, if the word ends as it says. -/
def Rule.apply (r : Rule) (word : Text) : Option Text :=
  r.endings.findSome? fun ending =>
    match stripLetters (ending.map .one) word with
    | none => none
    | some rest =>
      if r.stems.any fun stem =>
          match stripLetters stem rest with
          | some head => r.start.allows head
          | none => false
      then some (rest ++ r.plural)
      else none

/-- Places filled by the given letters. -/
def literal (t : Text) : List Letter :=
  t.map .one

/-- Words that end in one of `stems` take an ending. -/
def Rule.adding (stems : List (List Letter)) (plural : Text) : Rule :=
  ⟨stems, [[]], plural, .anywhere⟩

/-- Words that end in one of `stems` stay as they are. -/
def Rule.keeping (stems : List (List Letter)) : Rule :=
  ⟨stems, [[]], [], .anywhere⟩

/-- Words that end in one of `stems` and one of `endings` have `plural` in its place. -/
def Rule.exchanging (stems endings : List Text) (plural : Text) : Rule :=
  ⟨stems.map literal, endings, plural, .anywhere⟩

def vowels : Text := "aeiou"

/-! ### Tables -/

/-- The rules, the strongest first. -/
def rules : List Rule :=
  [.keeping [literal "sheep", literal "pox", [.one 'o', .oneOf "iu", .one 's'], literal "measles",
     literal "fish", literal "deer", [.noneOf vowels, .one 'e', .one 's', .one 'e'],
     literal "pok" ++ [.oneOf "eé"] ++ literal "mon"],
   ⟨[[]], ["thou"], "you", .atBeginning⟩,
   .exchanging ["m"] ["an", "en"] "en",
   .keeping [literal "eaux"],
   .exchanging ["child"] ["ren", ""] "ren",
   .exchanging ["pe"] ["rson", "ople"] "ople",
   ⟨[literal "titm", literal "m", literal "l"], ["ice", "ouse"], "ice", .atWordStart⟩,
   .exchanging ["matr", "cod", "mur", "sil", "vert", "ind", "append"] ["ix", "ex"] "ices",
   .adding [literal "x", literal "ch", literal "ss", literal "sh", literal "zz"] "es",
   ⟨[[.noneOf "ch", .oneOf "ieo", .oneOf "ln"]], ["ey"], "ies", .anywhere⟩,
   ⟨[[.noneOf "aeiouy"], literal "qu"], ["y"], "ies", .anywhere⟩,
   .exchanging ["kni", "wi", "li"] ["fe"] "ves",
   .exchanging ["ar", "l", "ea", "eo", "oa", "hoo"] ["f"] "ves",
   .exchanging [""] ["sis"] "ses",
   .exchanging ["apheli", "hyperbat", "periheli", "asyndet", "noumen", "phenomen", "criteri",
     "organ", "prolegomen", "hedr", "automat"] ["a", "on"] "a",
   .exchanging ["agend", "addend", "millenni", "dat", "extrem", "bacteri", "desiderat", "strat",
     "candelabr", "errat", "ov", "symposi", "curricul", "automat", "quor"] ["a", "um"] "a",
   .adding [literal "hero", literal "ato", literal "gro"] "es",
   .exchanging ["seraph", "cherub"] ["im", ""] "im",
   .exchanging ["alumn", "alg", "vertebr"] ["ae", "a"] "ae",
   .exchanging ["alumn", "syllab", "vir", "radi", "nucle", "fung", "cact", "stimul", "termin",
     "bacill", "foc", "uter", "loc", "strat"] ["us", "i"] "i",
   .keeping [[.noneOf "l", .one 'i', .one 'a', .one 's'],
     [.oneOf vowels, .one 'l', .one 'a', .one 's'], [.oneOf "ejzr", .one 'a', .one 's'],
     [.oneOf "iu", .one 'a', .one 'm']],
   ⟨[[.one 'e', .oneOf "mn", .one 'u']], ["s", ""], "s", .anywhere⟩,
   .adding [literal "alias", [.noneOf "aou", .one 'u', .one 's'],
     [.one 't', .oneOf "lm", .one 'a', .one 's'], literal "gas", literal "ris"] "es",
   ⟨[literal "ax", literal "test"], ["is"], "es", .anywhere⟩,
   .keeping [[.noneOf vowels, .one 'e', .one 's', .one 'e']],
   .keeping [[.beyondAscii]],
   .exchanging [""] ["s", ""] "s"]

/-- Pronouns and verbs with a plural of their own. -/
def irregularPronouns : List (Text × Text) :=
  [("I", "we"), ("me", "us"), ("he", "they"), ("she", "they"), ("them", "them"),
   ("myself", "ourselves"), ("yourself", "yourselves"), ("itself", "themselves"),
   ("herself", "themselves"), ("himself", "themselves"), ("themself", "themselves"),
   ("is", "are"), ("was", "were"), ("has", "have"), ("this", "these"), ("that", "those"),
   ("my", "our"), ("its", "their"), ("his", "their"), ("her", "their")]

/-- Nouns in o, and nouns with the plural of another language. -/
def irregularLoans : List (Text × Text) :=
  [("echo", "echoes"), ("dingo", "dingoes"), ("volcano", "volcanoes"), ("tornado", "tornadoes"),
   ("torpedo", "torpedoes"), ("genus", "genera"), ("viscus", "viscera"), ("stigma", "stigmata"),
   ("stoma", "stomata"), ("dogma", "dogmata"), ("lemma", "lemmata"), ("schema", "schemata"),
   ("anathema", "anathemata")]

/-- Other nouns with a plural of their own. -/
def irregularNouns : List (Text × Text) :=
  [("ox", "oxen"), ("axe", "axes"), ("die", "dice"), ("yes", "yeses"), ("foot", "feet"),
   ("eave", "eaves"), ("goose", "geese"), ("tooth", "teeth"), ("quiz", "quizzes"),
   ("human", "humans"), ("proof", "proofs"), ("carve", "carves"), ("valve", "valves"),
   ("looey", "looies"), ("thief", "thieves"), ("groove", "grooves"), ("pickaxe", "pickaxes"),
   ("passerby", "passersby"), ("canvas", "canvases")]

/-- Words with a plural of their own. -/
def irregular : List (Text × Text) :=
  irregularPronouns ++ irregularLoans ++ irregularNouns

/-- Words whose singular serves as their plural. -/
def uncountable : List Text :=
  Text.words ("adulthood advice agenda aid aircraft alcohol ammo analytics anime athletics audio "
    ++ "bison blood bream buffalo butter carp cash chassis chess clothing cod commerce "
    ++ "cooperation corps debris diabetes digestion elk energy equipment excretion expertise "
    ++ "firmware flounder fun gallows garbage graffiti hardware headquarters health herpes "
    ++ "highjinks homework housework information jeans justice kudos labour literature machinery "
    ++ "mackerel mail media mews moose music mud manga news only personnel pike plankton pliers "
    ++ "police pollution premises rain research rice salmon scissors series sewage shambles "
    ++ "shrimp software staff swine tennis traffic transportation trout tuna wealth welfare "
    ++ "whiting wildebeest wildlife you")

/-- The plural of a lower-case word. -/
def plural (word : Text) : Text :=
  if irregular.any (fun p => p.2 == word) then word
  else
    match irregular.lookup word with
    | some p => p
    | none =>
      if word.isEmpty || uncountable.contains word then word
      else (rules.findSome? fun r => r.apply word).getD word

/-- The table that holds the records of a model: the model's name in snake case with its last word
in the plural. -/
def tableName (model : Text) : Text :=
  let snake := Text.snakeCase model
  match Text.cutLast (· == '_') snake with
  | some (head, last) => head ++ '_' :: plural last
  | none => plural snake

end SqlComposer.Inflection
