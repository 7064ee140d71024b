/-!
# QuerySieve.Text

Text as filters see it: what counts as blank, trimming, and cutting a text at a separator.

Every function on `String` here is its counterpart on `List Char` read through `String.toList`, so a
statement about a text is a statement about a list. Two facts carry most of the weight:

* `splitChars_ne_nil`: cutting never yields nothing, the empty text is one empty piece;
* `joinChars_splitChars`: joining the pieces with the separator gives the text back.
-/

namespace QuerySieve.Text

/-- White space in the sense of the Unicode property `White_Space`. -/
def isBlank (c : Char) : Bool :=
  let n := c.toNat
  (9 ≤ n && n ≤ 13) || n == 0x20 || n == 0x85 || n == 0xA0 || n == 0x1680
    || (0x2000 ≤ n && n ≤ 0x200A) || n == 0x2028 || n == 0x2029 || n == 0x202F
    || n == 0x205F || n == 0x3000

/-- The characters without the white space at both ends. -/
def trimChars (cs : List Char) : List Char :=
  ((cs.dropWhile isBlank).reverse.dropWhile isBlank).reverse

/-- The text without the white space at both ends. -/
def trim (s : String) : String := .ofList (trimChars s.toList)

/-- Nothing but white space, the empty text included. -/
def isBlankText (s : String) : Bool := s.toList.all isBlank

/-- Cuts at every occurrence of `sep`. -/
def splitChars (sep : Char) : List Char → List (List Char)
  | [] => [[]]
  | c :: cs =>
    if c = sep then [] :: splitChars sep cs
    else match splitChars sep cs with
      | [] => [[c]]
      | piece :: pieces => (c :: piece) :: pieces

/-- The pieces written one after the other with `sep` between them. -/
def joinChars (sep : Char) : List (List Char) → List Char
  | [] => []
  | [piece] => piece
  | piece :: next :: pieces => piece ++ sep :: joinChars sep (next :: pieces)

/-- The pieces of a text between the occurrences of `sep`. -/
def split (sep : Char) (s : String) : List String :=
  (splitChars sep s.toList).map String.ofList

/-- The texts written one after the other with `sep` between them. -/
def join (sep : Char) (pieces : List String) : String :=
  .ofList (joinChars sep (pieces.map String.toList))

/-- ASCII letters in lower case, all other characters unchanged. -/
def lower (s : String) : String := .ofList (s.toList.map Char.toLower)

/-- `s` without `start`, if it begins with it. -/
def dropStart? (start s : String) : Option String :=
  if start.toList.isPrefixOf s.toList then
    some (.ofList (s.toList.drop start.toList.length))
  else none

/-- Does `s` begin with `start`? -/
def startsWith (start s : String) : Bool := start.toList.isPrefixOf s.toList

/-- Does `s` end with `tail`? -/
def endsWith (tail s : String) : Bool := tail.toList.isSuffixOf s.toList

/-- Does `s` contain the character `c`? -/
def hasChar (c : Char) (s : String) : Bool := s.toList.contains c

/-- Do the characters occur in a row? -/
def hasChars (part : List Char) : List Char → Bool
  | [] => part.isEmpty
  | c :: cs => part.isPrefixOf (c :: cs) || hasChars part cs

/-- Does `s` contain `part`? -/
def hasPart (part s : String) : Bool := hasChars part.toList s.toList

/-! ## Cutting and joining -/

theorem splitChars_ne_nil (sep : Char) (cs : List Char) : splitChars sep cs ≠ [] := by
  cases cs with
  | nil => simp [splitChars]
  | cons c cs =>
    rw [splitChars]
    split
    · simp
    · split <;> simp

theorem split_ne_nil (sep : Char) (s : String) : split sep s ≠ [] := by
  simp [split, splitChars_ne_nil]

theorem joinChars_cons_cons (sep : Char) (p q : List Char) (ps : List (List Char)) :
    joinChars sep (p :: q :: ps) = p ++ sep :: joinChars sep (q :: ps) := rfl

theorem joinChars_cons_head (sep c : Char) (p : List Char) (ps : List (List Char)) :
    joinChars sep ((c :: p) :: ps) = c :: joinChars sep (p :: ps) := by
  cases ps <;> rfl

/-- Cutting loses nothing: the pieces and the separator give the text back. -/
theorem joinChars_splitChars (sep : Char) (cs : List Char) :
    joinChars sep (splitChars sep cs) = cs := by
  induction cs with
  | nil => rfl
  | cons c cs ih =>
    rw [splitChars]
    split
    · rename_i h
      cases hs : splitChars sep cs with
      | nil => exact absurd hs (splitChars_ne_nil sep cs)
      | cons p ps => rw [joinChars_cons_cons, ← hs, ih, h]; rfl
    · cases hs : splitChars sep cs with
      | nil => exact absurd hs (splitChars_ne_nil sep cs)
      | cons p ps => simp only [joinChars_cons_head, ← hs, ih]

theorem join_split (sep : Char) (s : String) : join sep (split sep s) = s := by
  have h : (String.toList ∘ String.ofList : List Char → List Char) = id := by
    funext cs; simp
  simp [join, split, h, joinChars_splitChars]

/-- A text without the separator is one piece. -/
theorem splitChars_of_not_mem {sep : Char} {cs : List Char} (h : sep ∉ cs) :
    splitChars sep cs = [cs] := by
  induction cs with
  | nil => rfl
  | cons c cs ih =>
    simp only [List.mem_cons, not_or] at h
    simp [splitChars, ih h.2, Ne.symm h.1]

/-- No piece contains the separator. -/
theorem not_mem_of_mem_splitChars {sep : Char} {cs piece : List Char}
    (h : piece ∈ splitChars sep cs) : sep ∉ piece := by
  induction cs generalizing piece with
  | nil => simp_all [splitChars]
  | cons c cs ih =>
    rw [splitChars] at h
    split at h
    · rcases List.mem_cons.1 h with rfl | h
      · simp
      · exact ih h
    · rename_i hc
      cases hs : splitChars sep cs with
      | nil => exact absurd hs (splitChars_ne_nil sep cs)
      | cons p ps =>
        rw [hs] at h ih
        rcases List.mem_cons.1 h with rfl | h
        · have := ih (List.mem_cons_self ..)
          simp_all [eq_comm]
        · exact ih (List.mem_cons_of_mem _ h)

end QuerySieve.Text
