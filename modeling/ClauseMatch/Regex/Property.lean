import ClauseMatch.Regex.CharSet

/-!
# Named character properties

The names under which regular expressions refer to general categories and groups of them. Case,
blanks, underscores, dashes and a leading `is` do not matter. There are no tables for scripts, ages
and other properties of characters, so their names denote nothing.
-/

namespace ClauseMatch

namespace CharSet

/-- The names of general categories and of their groups, in normal form. -/
def propertyNames : List (List String × List Category) :=
  [(["lu", "uppercaseletter"], [.uppercaseLetter]),
   (["ll", "lowercaseletter"], [.lowercaseLetter]),
   (["lt", "titlecaseletter"], [.titlecaseLetter]),
   (["lc", "casedletter"], [.uppercaseLetter, .lowercaseLetter, .titlecaseLetter]),
   (["lm", "modifierletter"], [.modifierLetter]),
   (["lo", "otherletter"], [.otherLetter]),
   (["l", "letter"], Category.letters),
   (["mn", "nonspacingmark"], [.nonspacingMark]),
   (["mc", "spacingmark"], [.spacingMark]),
   (["me", "enclosingmark"], [.enclosingMark]),
   (["m", "mark", "combiningmark"], Category.marks),
   (["nd", "decimalnumber", "digit"], [.decimalNumber]),
   (["nl", "letternumber"], [.letterNumber]),
   (["no", "othernumber"], [.otherNumber]),
   (["n", "number"], Category.numbers),
   (["pc", "connectorpunctuation"], [.connectorPunctuation]),
   (["pd", "dashpunctuation"], [.dashPunctuation]),
   (["ps", "openpunctuation"], [.openPunctuation]),
   (["pe", "closepunctuation"], [.closePunctuation]),
   (["pi", "initialpunctuation"], [.initialPunctuation]),
   (["pf", "finalpunctuation"], [.finalPunctuation]),
   (["po", "otherpunctuation"], [.otherPunctuation]),
   (["p", "punctuation", "punct"],
    [.connectorPunctuation, .dashPunctuation, .openPunctuation, .closePunctuation,
     .initialPunctuation, .finalPunctuation, .otherPunctuation]),
   (["sm", "mathsymbol"], [.mathSymbol]),
   (["sc", "currencysymbol"], [.currencySymbol]),
   (["sk", "modifiersymbol"], [.modifierSymbol]),
   (["so", "othersymbol"], [.otherSymbol]),
   (["s", "symbol"], [.mathSymbol, .currencySymbol, .modifierSymbol, .otherSymbol]),
   (["zs", "spaceseparator"], [.spaceSeparator]),
   (["zl", "lineseparator"], [.lineSeparator]),
   (["zp", "paragraphseparator"], [.paragraphSeparator]),
   (["z", "separator"], [.spaceSeparator, .lineSeparator, .paragraphSeparator]),
   (["cc", "control", "cntrl"], [.control]),
   (["cf", "format"], [.format]),
   (["cs", "surrogate"], [.surrogate]),
   (["co", "privateuse"], [.privateUse]),
   (["cn", "unassigned"], [.unassigned]),
   (["c", "other"], [.control, .format, .surrogate, .privateUse, .unassigned])]

/-- A property name without a leading `is`, and whether it had one. -/
def dropIs (name : List Char) : Bool × List Char :=
  match name with
  | i :: s :: rest => if i.toLower = 'i' ∧ s.toLower = 's' then (true, rest) else (false, name)
  | _ => (false, name)

/-- The normal form of a property name. The name `isc` is complete: it is no other name for `c`. -/
def normalName (name : List Char) : String :=
  let matters (c : Char) : Bool := c != ' ' && c != '_' && c != '-' && c.toNat < 0x80
  let (had, rest) := dropIs name
  let kept := String.ofList ((rest.filter matters).map Char.toLower)
  if had && kept = "c" then "isc" else kept

/-- The general category or group with the given normal name. -/
def categories? (name : String) : Option CharSet :=
  (propertyNames.find? fun entry => entry.1.contains name).map fun entry => categories entry.2

/-- The set with the given property name. -/
def named? (name : List Char) : Option CharSet :=
  match normalName name with
  | "any" => some all
  | "ascii" => some (ranges [(0x00, 0x7F)])
  | "assigned" => some (complement (categories [.unassigned]))
  | "whitespace" => some blank
  | "space" => some blank
  | normal => categories? normal

/-- The set of the characters whose given property has the given value. -/
def withValue? (property value : List Char) : Option CharSet :=
  let property := normalName property
  if property = "gc" ∨ property = "generalcategory" then named? value else none

/-- The set that the inside of a property escape denotes: a name, or a property and its value
joined by `=`, `:` or, negated, by `!=`. -/
def ofPropertyText? (text : List Char) : Option CharSet :=
  let isSeparator (c : Char) : Bool := c == '=' || c == ':' || c == '!'
  let property := text.takeWhile fun c => !isSeparator c
  match text.dropWhile fun c => !isSeparator c with
  | [] => named? text
  | '!' :: '=' :: value => (withValue? property value).map complement
  | '!' :: _ => none
  | _ :: value => withValue? property value

end CharSet

end ClauseMatch
