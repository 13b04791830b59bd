/-!
# Documentation

The texts that the documentation commands print: an overview and one page for each category. A
category is known under several names, and case does not matter in them.
-/

namespace DisplayLogic.Command

/-- What the documentation is divided into. -/
inductive Category where
  | grammar
  | operators
  | literals
  | identifiers
  | errors
deriving DecidableEq, Inhabited

namespace Category

/-- Every category, in the order of the overview. -/
def all : List Category := [grammar, operators, literals, identifiers, errors]

/-- The names of a category, in lowercase. -/
def names : Category → List String
  | grammar => ["syntax"]
  | operators => ["operators", "ops"]
  | literals => ["literals", "literal", "types"]
  | identifiers => ["variables", "variable", "vars"]
  | errors => ["errors", "error", "fallback"]

/-- The lowercase form of a character, as far as names of categories are concerned. Besides the
capital letters only the sign of the kelvin has a lowercase form among them. -/
def lowercase (c : Char) : Char := if c = '\u212a' then 'k' else c.toLower

def ofName? (name : String) : Option Category :=
  let folded := String.ofList (name.toList.map lowercase)
  all.find? fun category => category.names.contains folded

end Category

def overviewPage : List String := [
  "HUDCOND DOCUMENTATION",
  "",
  "Conditionals are boolean expressions embedded in display templates. The",
  "display re-evaluates them every frame and shows one of two branches.",
  "",
  "DOCUMENTATION CATEGORIES",
  "",
  "  syntax            Grouping, precedence and whitespace",
  "  operators         Comparison and logical operators",
  "  literals          Strings, numbers and booleans, and how they coerce",
  "  variables         Identifiers and the variables document",
  "  errors            What happens when an expression does not compile",
  "",
  "QUICK REFERENCE",
  "",
  "  a & b             Both hold",
  "  a | b             Either holds",
  "  x >= 10           Numeric comparison",
  "  name = \"steve\"    Text comparison",
  "  (a | b) & c       Grouping",
  "",
  "Run 'hudcond doc <category>' for detailed documentation."]

def grammarPage : List String := [
  "SYNTAX - Structure of a conditional",
  "",
  "PRECEDENCE",
  "  |  binds loosest, then &, then comparisons.",
  "",
  "    a & b | c & d    is    (a & b) | (c & d)",
  "",
  "GROUPING",
  "  ( ... )",
  "    Parentheses group any sub-expression and may nest freely.",
  "",
  "    (health < 5 | hunger < 5) & dimension = \"nether\"",
  "",
  "WHITESPACE",
  "  Whitespace and any character the grammar does not know are skipped."]

def operatorsPage : List String := [
  "OPERATORS",
  "",
  "COMPARISON",
  "  =     equal (a single '=')",
  "  !=    not equal",
  "  <     less than",
  "  <=    less than or equal",
  "  >     greater than",
  "  >=    greater than or equal",
  "",
  "  A comparison has exactly one operator between two operands.",
  "",
  "LOGICAL",
  "  &     and, stops at the first false operand",
  "  |     or, stops at the first true operand"]

def literalsPage : List String := [
  "LITERALS",
  "",
  "STRING",
  "  \"text\"",
  "    Everything up to the next double quote. No escapes.",
  "",
  "NUMBER",
  "  12   0.5   3.",
  "    Digits and dots. No sign, no exponent.",
  "",
  "BOOLEAN",
  "  true   false",
  "",
  "COERCION",
  "  A comparison against a boolean literal compares boolean views.",
  "  Otherwise a comparison against a number literal compares numbers.",
  "  Otherwise both sides are compared as text.",
  "",
  "  Variables expose all three views: text sources count their length as",
  "  a number, and any source is true when its number is above zero."]

def identifiersPage : List String := [
  "VARIABLES",
  "",
  "IDENTIFIERS",
  "  Lowercase letters, '_' and ':'.",
  "",
  "    health   dimension_id   client:fps",
  "",
  "  A bare variable is true when its boolean view is true.",
  "",
  "VARIABLES DOCUMENT",
  "  hudcond reads variables from a JSON object:",
  "",
  "    \x7b\"health\": 20, \"dimension\": \"overworld\", \"raining\": false, \"biome\": null\x7d",
  "",
  "  null marks a source with no data: it reads as \"-\", 0 and false."]

def errorsPage : List String := [
  "ERRORS",
  "",
  "  An expression that does not compile (a lone '!', a missing operand, an",
  "  unknown variable, unbalanced parentheses) is reported once and then",
  "  always evaluates to true.",
  "",
  "  hudcond check --strict reports the error instead."]

def Category.page : Category → List String
  | grammar => grammarPage
  | operators => operatorsPage
  | literals => literalsPage
  | identifiers => identifiersPage
  | errors => errorsPage

/-- Lines as a text, each ended by a line break. -/
def linesText (lines : List String) : String := .join (lines.map (· ++ "\n"))

def Category.text (category : Category) : String := linesText category.page

def overview : String := linesText overviewPage

end DisplayLogic.Command
