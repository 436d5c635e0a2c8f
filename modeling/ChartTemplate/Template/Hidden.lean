import ChartTemplate.Text.Blank

/-!
# Hidden template text

Parts of a template can be hidden in comments, so that what is left is plain JSON. A comment whose
mark follows its opening and one blank gives way to what it hides: a block comment up to its end, a
line comment, after one more blank, up to the end of the line.
-/

namespace ChartTemplate

/-- The mark of comments that hide template text. -/
def hiddenMark : List Char := ['H', 'B', 'T']

def afterMark? (cs : List Char) : Option (List Char) :=
  match cs with
  | c :: 'H' :: 'B' :: 'T' :: r => if isBlank c then some r else none
  | _ => none

/-- Splits a text at the first end of a block comment. -/
def splitBlock? : List Char → Option (List Char × List Char)
  | [] => none
  | '*' :: '/' :: r => some ([], r)
  | c :: r => (splitBlock? r).map fun p => (c :: p.1, p.2)

theorem length_afterMark {cs r : List Char} (h : afterMark? cs = some r) :
    r.length < cs.length := by
  unfold afterMark? at h
  split at h
  · split at h
    · cases h
      simp only [List.length_cons]
      omega
    · cases h
  · cases h

theorem length_splitBlock {cs a r : List Char} (h : splitBlock? cs = some (a, r)) :
    r.length < cs.length := by
  fun_induction splitBlock? cs generalizing a r with
  | case1 => cases h
  | case2 r' =>
    cases h
    simp only [List.length_cons]
    omega
  | case3 c r' _ ih =>
    obtain ⟨⟨b, t⟩, hb, he⟩ := Option.map_eq_some_iff.1 h
    cases he
    have := ih hb
    simp only [List.length_cons]
    omega

/-- Puts what marked block comments hide in their places. An unclosed one ends the search. -/
def revealBlocks : List Char → List Char
  | [] => []
  | '/' :: '*' :: r =>
    match _hm : afterMark? r with
    | none => '/' :: '*' :: revealBlocks r
    | some body =>
      match _hs : splitBlock? body with
      | some (inner, rest) => inner ++ revealBlocks rest
      | none => '/' :: '*' :: r
  | c :: r => c :: revealBlocks r
termination_by cs => cs.length
decreasing_by
  · simp only [List.length_cons]
    omega
  · have := length_afterMark _hm
    have := length_splitBlock _hs
    simp only [List.length_cons]
    omega
  · simp only [List.length_cons]
    omega

/-- Puts what the first marked line comment of a line hides in its place. -/
def revealLine : List Char → List Char
  | [] => []
  | '/' :: '/' :: r =>
    match afterMark? r with
    | some (c :: body) => if isBlank c then body else '/' :: '/' :: revealLine r
    | _ => '/' :: '/' :: revealLine r
  | c :: r => c :: revealLine r

def splitLines : List Char → List (List Char)
  | [] => [[]]
  | c :: cs =>
    match splitLines cs with
    | [] => [[c]]
    | l :: ls => if c = '\n' then [] :: l :: ls else (c :: l) :: ls

def joinLines : List (List Char) → List Char
  | [] => []
  | [l] => l
  | l :: ls => l ++ '\n' :: joinLines ls

/-- Puts what marked comments hide in their places. -/
def reveal (code : String) : String :=
  String.ofList (joinLines ((splitLines (revealBlocks code.toList)).map revealLine))

/-- Turns a backslash followed by the letter `n` into a line break. -/
def expandBreaks : List Char → List Char
  | [] => []
  | '\\' :: 'n' :: r => '\n' :: expandBreaks r
  | c :: r => c :: expandBreaks r

end ChartTemplate
