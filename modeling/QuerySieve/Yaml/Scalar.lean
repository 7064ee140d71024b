import QuerySieve.Text
import QuerySieve.Text.Hexadecimal

/-!
# QuerySieve.Yaml.Scalar

Texts as YAML scalars.

A text is written plain if a reader takes it for that text: it must not look like another kind of
value (`looksTyped`) nor have a mark that ends or begins something else (`hasIndicator`). Otherwise
it stands in single quotes. A text of several lines is a literal block. What has characters that
neither form can carry stands in double quotes with escapes.
-/

namespace QuerySieve.Yaml

/-! ## What looks like another value -/

/-- Words that mean null, a truth value or a number that has no digits. -/
def typedWords : List String :=
  ["", "~", "null", "Null", "NULL", "true", "True", "TRUE", "false", "False", "FALSE",
    ".inf", ".Inf", ".INF", "-.inf", "-.Inf", "-.INF", "+.inf", "+.Inf", "+.INF",
    ".nan", ".NaN", ".NAN"]

/-- Digits of a base, at least one. -/
def areDigitsIn (base : Nat) (cs : List Char) : Bool :=
  !cs.isEmpty && cs.all fun c => ((Text.hexDigit? c).getD base) < base

/-- An integer with its base told at its start. -/
def isBasedInteger : List Char → Bool
  | '0' :: 'x' :: cs => areDigitsIn 16 cs
  | '0' :: 'o' :: cs => areDigitsIn 8 cs
  | '0' :: 'b' :: cs => areDigitsIn 2 cs
  | _ => false

/-- What stands after a power of ten's mark. -/
def isExponent : List Char → Bool
  | '+' :: cs => areDigitsIn 10 cs
  | '-' :: cs => areDigitsIn 10 cs
  | cs => areDigitsIn 10 cs

/-- A decimal number: digits, with a point anywhere among them or without, and a power of ten or
without. -/
def isDecimal (cs : List Char) : Bool :=
  let whole := cs.takeWhile Char.isDigit
  let rest := cs.dropWhile Char.isDigit
  let (fraction, rest) := match rest with
    | '.' :: rest => (rest.takeWhile Char.isDigit, rest.dropWhile Char.isDigit)
    | rest => ([], rest)
  let ends := match rest with
    | [] => true
    | c :: rest => (c == 'e' || c == 'E') && isExponent rest
  !(whole.isEmpty && fraction.isEmpty) && ends

/-- A number after an optional sign. -/
def isNumber : List Char → Bool
  | '+' :: cs => isBasedInteger cs || isDecimal cs
  | '-' :: cs => isBasedInteger cs || isDecimal cs
  | cs => isBasedInteger cs || isDecimal cs

/-- Does a text look like null, a truth value or a number? -/
def looksTyped (s : String) : Bool := typedWords.contains s || isNumber s.toList

/-! ## Marks -/

/-- A blank, a line break, or the end. -/
def endsWord (cs : List Char) : Bool :=
  (cs.head?.map fun c => c == ' ' || c == '\t' || c == '\n').getD true

/-- A mark that a plain scalar cannot begin with. -/
def isLeadingIndicator (c : Char) : Bool := "#,[]\x7b\x7d&*!|>'\"%@\x60".toList.contains c

/-- Has the text, after its first character, a mark that would end a plain scalar: a colon before a
blank, or a number sign after one? `blank` tells whether a blank comes before. -/
def hasInnerIndicator : Bool → List Char → Bool
  | _, [] => false
  | blank, c :: cs =>
    (c == ':' && endsWord cs) || (c == '#' && blank)
      || hasInnerIndicator (c == ' ' || c == '\t' || c == '\n') cs

/-- Has the text a mark that a plain scalar cannot have? -/
def hasIndicator (s : String) : Bool :=
  Text.startsWith "---" s || Text.startsWith "..." s ||
    match s.toList with
    | [] => false
    | c :: cs =>
      isLeadingIndicator c || ((c == '?' || c == ':' || c == '-') && endsWord cs)
        || hasInnerIndicator (c == ' ') cs

/-- A character that may be written as it is. -/
def isPrintable (c : Char) : Bool :=
  let n := c.toNat
  n == 0x0A || (0x20 ≤ n && n ≤ 0x7E) || (0xA0 ≤ n && n ≤ 0xD7FF)
    || (0xE000 ≤ n && n ≤ 0xFFFD && n != 0xFEFF)

/-! ## Writing -/

/-- A number in hexadecimal, with zeros before it. -/
def hexPadded (width n : Nat) : List Char :=
  let digits := (Nat.toDigits 16 n).map Char.toUpper
  List.replicate (width - digits.length) '0' ++ digits

/-- A character inside double quotes. -/
def escapeChar (c : Char) : List Char :=
  match letters.lookup c.toNat with
  | some e => ['\\', e]
  | none =>
    if isPrintable c then [c]
    else if c.toNat ≤ 0xFF then '\\' :: 'x' :: hexPadded 2 c.toNat
    else if c.toNat ≤ 0xFFFF then '\\' :: 'u' :: hexPadded 4 c.toNat
    else '\\' :: 'U' :: hexPadded 8 c.toNat
where
  /-- The characters that have an escape of one letter. -/
  letters : List (Nat × Char) :=
    [(0x00, '0'), (0x07, 'a'), (0x08, 'b'), (0x09, 't'), (0x0A, 'n'), (0x0B, 'v'), (0x0C, 'f'),
      (0x0D, 'r'), (0x1B, 'e'), (0x22, '"'), (0x5C, '\\'), (0x85, 'N'), (0x2028, 'L'),
      (0x2029, 'P')]

/-- In double quotes. -/
def doubleQuoted (s : String) : String := .ofList ('"' :: s.toList.flatMap escapeChar ++ ['"'])

/-- In single quotes; one inside is doubled. -/
def singleQuoted (s : String) : String :=
  .ofList ('\'' :: s.toList.flatMap (fun c => if c = '\'' then ['\'', '\''] else [c]) ++ ['\''])

/-- Has the text a blank at either end? -/
def hasOuterBlank (s : String) : Bool := Text.startsWith " " s || Text.endsWith " " s

/-- A text on one line. -/
def inline (s : String) : String :=
  if s.toList.any fun c => !isPrintable c || c == '\n' then doubleQuoted s
  else if looksTyped s || hasIndicator s || hasOuterBlank s then singleQuoted s
  else s

/-- Can a text be a literal block? -/
def fitsBlock (s : String) : Bool :=
  Text.hasChar '\n' s && s.toList.all isPrintable && !Text.endsWith " " s && !Text.hasPart " \n" s

/-- What tells how a literal block begins and ends. -/
def blockHeader (s : String) : String :=
  let start := if Text.startsWith " " s || Text.startsWith "\n" s then "2" else ""
  let finish := if !Text.endsWith "\n" s then "-"
    else if s = "\n" || Text.endsWith "\n\n" s then "+" else ""
  "|" ++ start ++ finish

/-- A literal block with its lines indented, up to the end of the last line. -/
def literalBlock (indent : String) (s : String) : String :=
  let s' := if Text.endsWith "\n" s then String.ofList s.toList.dropLast else s
  let line (l : String) : String := if l = "" then "\n" else "\n" ++ indent ++ l
  blockHeader s ++ String.join ((Text.split '\n' s').map line)

end QuerySieve.Yaml
