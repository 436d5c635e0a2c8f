import Mathlib
import ChartTemplate.Proofs.Json.Digits
import ChartTemplate.Proofs.Walk.Frame
import ChartTemplate.Proofs.Walk.Traced

/-!
# References

The reference of a member is its path and its key. Where no key has a dot or a bracket, references can
be read back: what a path adds to that of a container is a name and perhaps an index, and then nothing
or a dot or a bracket (`exists_path_along`), so the first step of an address shows in the reference
(`mark_inj`). Hence members at different addresses have different references (`reference_inj`), and no
walk of a visitor that changes nothing meets a reference twice (`nodup_references`).
-/

namespace ChartTemplate

open Entries (keys get?)
open Json.Read (Digits)

/-! ## Index names -/

theorem indexName_injective : Function.Injective indexName := fun _ _ h =>
  natChars_injective (String.ofList_injective h)

/-! ## Names in a path -/

/-- A name has no character that sets names apart in a path. -/
def PlainName (name : String) : Prop :=
  ∀ c ∈ name.toList, c ≠ '.' ∧ c ≠ '['

/-- Nothing follows, or a character that sets names apart. -/
def EndsName (rest : String) : Prop :=
  ∀ c r, rest.toList = c :: r → c = '.' ∨ c = '['

/-- What a path adds for a name, or for an item of the array with the name. -/
def mark (name : String) : Option Nat → String
  | none => "." ++ name
  | some i => "[" ++ indexName i ++ "]." ++ name

theorem plainName_indexName (i : Nat) : PlainName (indexName i) := by
  intro c hc
  have hdigit : c.isDigit = true := Json.digits_natChars i c (by simpa [indexName] using hc)
  constructor <;>
  · rintro rfl
    cases hdigit

theorem endsName_empty : EndsName "" := fun _ _ h => nomatch h

theorem endsName_mark (name : String) (i? : Option Nat) (rest : String) :
    EndsName (mark name i? ++ rest) := by
  intro c r h
  cases i? with
  | none => exact .inl (List.cons.inj (by simpa [mark] using h)).1.symm
  | some i => exact .inr (List.cons.inj (by simpa [mark] using h)).1.symm

theorem EndsName.append {rest rest' : String} (h : EndsName rest) (h' : EndsName rest') :
    EndsName (rest ++ rest') := by
  intro c r hc
  rw [String.toList_append] at hc
  cases hrest : rest.toList with
  | nil =>
    rw [hrest] at hc
    exact h' c r hc
  | cons d s =>
    rw [hrest] at hc
    exact h c s ((List.cons.inj hc).1 ▸ hrest)

/-- Runs of characters of one kind, each up to its end or a character of another kind, are the same if
what they begin is. -/
theorem run_inj {p : Char → Prop} {cs cs' rest rest' : List Char} (hcs : ∀ c ∈ cs, p c)
    (hcs' : ∀ c ∈ cs', p c) (hrest : ∀ c r, rest = c :: r → ¬p c)
    (hrest' : ∀ c r, rest' = c :: r → ¬p c) (h : cs ++ rest = cs' ++ rest') :
    cs = cs' ∧ rest = rest' := by
  induction cs generalizing cs' with
  | nil =>
    cases cs' with
    | nil => exact ⟨rfl, h⟩
    | cons c cs' => exact absurd (hcs' c List.mem_cons_self) (hrest c _ h)
  | cons c cs ih =>
    cases cs' with
    | nil => exact absurd (hcs c List.mem_cons_self) (hrest' c _ h.symm)
    | cons c' cs' =>
      obtain ⟨rfl, htail⟩ := List.cons.inj h
      obtain ⟨rfl, hends⟩ := ih (fun d hd => hcs d (List.mem_cons_of_mem _ hd))
        (fun d hd => hcs' d (List.mem_cons_of_mem _ hd)) htail
      exact ⟨rfl, hends⟩

theorem name_inj {name name' rest rest' : String} (hname : PlainName name)
    (hname' : PlainName name') (hrest : EndsName rest) (hrest' : EndsName rest')
    (h : name ++ rest = name' ++ rest') : name = name' ∧ rest = rest' := by
  have hplain {c : Char} (hc : c = '.' ∨ c = '[') : ¬(c ≠ '.' ∧ c ≠ '[') := by
    rintro ⟨hdot, hbracket⟩
    exact hc.elim hdot hbracket
  have hchars : name.toList ++ rest.toList = name'.toList ++ rest'.toList := by
    simpa using congrArg String.toList h
  obtain ⟨heq, hends⟩ := run_inj hname hname' (fun c r hc => hplain (hrest c r hc))
    (fun c r hc => hplain (hrest' c r hc)) hchars
  exact ⟨String.toList_inj.1 heq, String.toList_inj.1 hends⟩

theorem index_inj {i i' : Nat} {rest rest' : String}
    (h : indexName i ++ ("]" ++ rest) = indexName i' ++ ("]" ++ rest')) :
    i = i' ∧ rest = rest' := by
  have hchars : natChars i ++ ']' :: rest.toList = natChars i' ++ ']' :: rest'.toList := by
    simpa [indexName] using congrArg String.toList h
  have hbracket : ∀ cs c (r : List Char), ']' :: cs = c :: r → ¬c.isDigit = true := by
    intro cs c r hc
    rw [← (List.cons.inj hc).1]
    decide
  obtain ⟨hi, hrest⟩ := run_inj (Json.digits_natChars i) (Json.digits_natChars i') (hbracket _)
    (hbracket _) hchars
  exact ⟨natChars_injective hi, String.toList_inj.1 (List.cons.inj hrest).2⟩

/-- **Reading a mark back**: what a path adds for a name shows the name and the index. -/
theorem mark_inj {path name name' rest rest' : String} {i? i?' : Option Nat}
    (hname : PlainName name) (hname' : PlainName name') (hrest : EndsName rest)
    (hrest' : EndsName rest') (h : path ++ mark name i? ++ rest = path ++ mark name' i?' ++ rest') :
    name = name' ∧ i? = i?' ∧ rest = rest' := by
  rw [String.append_assoc, String.append_assoc] at h
  have hmark := (String.append_right_inj path).1 h
  cases i? with
  | none =>
    cases i?' with
    | none =>
      rw [mark, mark, String.append_assoc, String.append_assoc] at hmark
      have hnames := (String.append_right_inj ".").1 hmark
      obtain ⟨rfl, rfl⟩ := name_inj hname hname' hrest hrest' hnames
      exact ⟨rfl, rfl, rfl⟩
    | some i' =>
      have hchars := congrArg String.toList hmark
      simp [mark] at hchars
  | some i =>
    cases i?' with
    | none =>
      have hchars := congrArg String.toList hmark
      simp [mark] at hchars
    | some i' =>
      have hsplit (i : Nat) (name rest : String) :
          mark name (some i) ++ rest = "[" ++ (indexName i ++ ("]" ++ ("." ++ (name ++ rest)))) := by
        rw [mark, show "]." = "]" ++ "." from rfl]
        simp only [String.append_assoc]
      rw [hsplit, hsplit] at hmark
      obtain ⟨rfl, hnames⟩ := index_inj ((String.append_right_inj "[").1 hmark)
      obtain ⟨rfl, rfl⟩ :=
        name_inj hname hname' hrest hrest' ((String.append_right_inj ".").1 hnames)
      exact ⟨rfl, rfl, rfl⟩

theorem memberPath_eq_mark (path name : String) : memberPath path name = path ++ mark name none := by
  rw [memberPath, mark, String.append_assoc]

theorem itemPath_eq_mark (path : String) (i : Nat) (name : String) :
    itemPath path i name = path ++ mark name (some i) := by
  simp only [itemPath, mark, String.append_assoc]

/-! ## Paths of addresses -/

def firstIndex? : List Step → Option Nat
  | .index i :: _ => some i
  | _ => none

/-- What the paths in a place have in common. In an array with a name, it shows which item they are
in. -/
def Place.stem (pl : Place) (i? : Option Nat) : String :=
  match pl with
  | .here path => path
  | .member path k => path ++ mark k i?
  | .item path n => path ++ mark (indexName n) i?

theorem stem_none (pl : Place) : pl.stem none = pl.path := by
  cases pl with
  | here path => rfl
  | member path k => exact (memberPath_eq_mark path k).symm
  | item path n => exact (memberPath_eq_mark path (indexName n)).symm

theorem exists_stem_nth (pl : Place) (i : Nat) (i? : Option Nat) :
    ∃ rest, EndsName rest ∧ (pl.nth i).stem i? = pl.stem (some i) ++ rest := by
  cases pl with
  | here path =>
    refine ⟨mark (indexName i) i?, ?_, rfl⟩
    simpa using endsName_mark (indexName i) i? ""
  | member path k =>
    refine ⟨"", endsName_empty, ?_⟩
    rw [String.append_empty]
    exact itemPath_eq_mark path i k
  | item path n =>
    refine ⟨"", endsName_empty, ?_⟩
    rw [String.append_empty]
    exact itemPath_eq_mark path i (indexName n)

/-- **The path of an address** shows the index with which the address begins. -/
theorem exists_path_along (pl : Place) (a : List Step) :
    ∃ rest, EndsName rest ∧ (pl.along a).path = pl.stem (firstIndex? a) ++ rest := by
  induction a generalizing pl with
  | nil =>
    refine ⟨"", endsName_empty, ?_⟩
    rw [String.append_empty]
    exact (stem_none pl).symm
  | cons step a ih =>
    cases step with
    | key k =>
      obtain ⟨rest, hrest, heq⟩ := ih (.member pl.path k)
      refine ⟨mark k (firstIndex? a) ++ rest, endsName_mark k _ rest, ?_⟩
      show ((Place.member pl.path k).along a).path = pl.stem none ++ (mark k (firstIndex? a) ++ rest)
      rw [stem_none, ← String.append_assoc]
      exact heq
    | index i =>
      obtain ⟨rest, hrest, heq⟩ := ih (pl.nth i)
      obtain ⟨rest', hrest', hstem⟩ := exists_stem_nth pl i (firstIndex? a)
      refine ⟨rest' ++ rest, hrest'.append hrest, ?_⟩
      show ((pl.nth i).along a).path = pl.stem (some i) ++ (rest' ++ rest)
      rw [← String.append_assoc, ← hstem]
      exact heq

/-! ## References -/

/-- The reference of the member `k` of the object at an address. -/
def Place.reference (pl : Place) (a : List Step) (k : String) : String :=
  memberPath (pl.along a).path k

/-- The reference of a member in a place begins with what the paths in the place have in common. -/
theorem exists_reference (pl : Place) (a : List Step) (k : String) :
    ∃ rest, EndsName rest ∧ rest ≠ "" ∧ pl.reference a k = pl.stem (firstIndex? a) ++ rest := by
  obtain ⟨rest, hrest, heq⟩ := exists_path_along pl a
  have hmark : EndsName (mark k none) := by simpa using endsName_mark k none ""
  refine ⟨rest ++ mark k none, hrest.append hmark, ?_, ?_⟩
  · intro hempty
    simpa [mark] using congrArg String.toList hempty
  · rw [Place.reference, memberPath_eq_mark, heq, String.append_assoc]

variable {path k k' : String} {a b : List Step} {pl : Place}

theorem owner?_nth (pl : Place) (i : Nat) : ∀ l, (pl.nth i).owner? = some l → PlainName l := by
  intro l h
  cases pl <;> cases h

theorem memberPath_inj (hk : PlainName k) (hk' : PlainName k')
    (h : memberPath path k = memberPath path k') : k = k' := by
  rw [memberPath_eq_mark, memberPath_eq_mark] at h
  exact (mark_inj hk hk' endsName_empty endsName_empty (congrArg (· ++ "") h)).1

theorem reference_ne_of_key {l l' : String} (hl : PlainName l) (hl' : PlainName l') :
    memberPath path l ≠ (Place.member path l').reference a k := by
  intro h
  obtain ⟨rest, hrest, hne, heq⟩ := exists_reference (.member path l') a k
  rw [heq, memberPath_eq_mark, ← String.append_empty (s := path ++ mark l none)] at h
  exact hne (mark_inj hl hl' endsName_empty hrest h).2.2.symm

theorem reference_mark_inj {pl' : Place} {name name' : String} {i? i?' : Option Nat}
    (hname : PlainName name) (hname' : PlainName name')
    (hstem : pl.stem (firstIndex? a) = path ++ mark name i?)
    (hstem' : pl'.stem (firstIndex? b) = path ++ mark name' i?')
    (h : pl.reference a k = pl'.reference b k') : name = name' ∧ i? = i?' := by
  obtain ⟨rest, hrest, -, heq⟩ := exists_reference pl a k
  obtain ⟨rest', hrest', -, heq'⟩ := exists_reference pl' b k'
  rw [heq, heq', hstem, hstem'] at h
  obtain ⟨hnames, hindices, -⟩ := mark_inj hname hname' hrest hrest' h
  exact ⟨hnames, hindices⟩

theorem key_inj {l l' : String} (hl : PlainName l) (hl' : PlainName l')
    (h : (Place.member path l).reference a k = (Place.member path l').reference b k') : l = l' :=
  (reference_mark_inj hl hl' rfl rfl h).1

theorem reference_nth (pl : Place) (i : Nat) (a : List Step) (k : String) :
    (pl.nth i).reference a k = pl.reference (.index i :: a) k := rfl

theorem nth_inj (hpl : ∀ l, pl.owner? = some l → PlainName l) {i i' : Nat}
    (h : (pl.nth i).reference a k = (pl.nth i').reference b k') : i = i' := by
  -- The index of an item is in the mark of the array, or in that of the item if the array has no name.
  cases pl with
  | here path =>
    have hnames := plainName_indexName
    exact indexName_injective (reference_mark_inj (hnames i) (hnames i') rfl rfl h).1
  | member path l =>
    have hl := hpl l rfl
    rw [reference_nth, reference_nth] at h
    exact Option.some.inj (reference_mark_inj hl hl rfl rfl h).2
  | item path n =>
    have hn := plainName_indexName n
    rw [reference_nth, reference_nth] at h
    exact Option.some.inj (reference_mark_inj hn hn rfl rfl h).2

/-! ## Documents with plain keys -/

def Json.HasMember (j : Json) (a : List Step) (k : String) : Prop :=
  ∃ ms, j.at? a = some (.obj ms) ∧ k ∈ keys ms

/-- No object in the document has a key with a dot or a bracket. -/
def Json.PlainKeys (j : Json) : Prop :=
  ∀ a k, j.HasMember a k → PlainName k

theorem Json.HasMember.nil {j : Json} (h : j.HasMember [] k) : ∃ ms, j = .obj ms ∧ k ∈ keys ms := by
  obtain ⟨ms, hat, hk⟩ := h
  exact ⟨ms, Option.some.inj hat, hk⟩

theorem Json.HasMember.key {j : Json} {l : String} (h : j.HasMember (.key l :: a) k) :
    ∃ ms v, j = .obj ms ∧ Entries.get? ms l = some v ∧ v.HasMember a k := by
  obtain ⟨ms', hat, hk⟩ := h
  cases j with
  | obj ms =>
    obtain ⟨v, hget, hat⟩ := Option.bind_eq_some_iff.1 hat
    exact ⟨ms, v, rfl, hget, ms', hat, hk⟩
  | _ => cases hat

theorem Json.HasMember.index {j : Json} {i : Nat} (h : j.HasMember (.index i :: a) k) :
    ∃ js v, j = .arr js ∧ js[i]? = some v ∧ v.HasMember a k := by
  obtain ⟨ms, hat, hk⟩ := h
  cases j with
  | arr js =>
    obtain ⟨v, hget, hat⟩ := Option.bind_eq_some_iff.1 hat
    exact ⟨js, v, rfl, hget, ms, hat, hk⟩
  | _ => cases hat

theorem Json.HasMember.of_obj {ms : Members} (h : (Json.obj ms).HasMember a k) :
    (a = [] ∧ k ∈ keys ms) ∨
      ∃ l v b, a = .key l :: b ∧ Entries.get? ms l = some v ∧ v.HasMember b k := by
  rcases a with _ | ⟨l | i, b⟩
  · obtain ⟨ms', heq, hk⟩ := h.nil
    obtain rfl := Json.obj.inj heq
    exact .inl ⟨rfl, hk⟩
  · obtain ⟨ms', v, heq, hget, hv⟩ := h.key
    obtain rfl := Json.obj.inj heq
    exact .inr ⟨l, v, b, rfl, hget, hv⟩
  · obtain ⟨js, v, heq, -⟩ := h.index
    cases heq

theorem Json.HasMember.of_arr {js : List Json} (h : (Json.arr js).HasMember a k) :
    ∃ i v b, a = .index i :: b ∧ js[i]? = some v ∧ v.HasMember b k := by
  rcases a with _ | ⟨l | i, b⟩
  · obtain ⟨ms, heq, -⟩ := h.nil
    cases heq
  · obtain ⟨ms, v, heq, -⟩ := h.key
    cases heq
  · obtain ⟨js', v, heq, hget, hv⟩ := h.index
    obtain rfl := Json.arr.inj heq
    exact ⟨i, v, b, rfl, hget, hv⟩

theorem Json.PlainKeys.member {ms : Members} {v : Json} (h : (Json.obj ms).PlainKeys)
    (hget : Entries.get? ms k = some v) : PlainName k ∧ v.PlainKeys := by
  refine ⟨h [] k ⟨ms, rfl, Entries.mem_keys_of_mem (Entries.mem_of_get? hget)⟩, ?_⟩
  rintro a l ⟨ms', hat, hl⟩
  refine h (.key k :: a) l ⟨ms', ?_, hl⟩
  rw [Json.at?, hget]
  exact hat

theorem Json.PlainKeys.item {js : List Json} {i : Nat} {v : Json} (h : (Json.arr js).PlainKeys)
    (hget : js[i]? = some v) : v.PlainKeys := by
  rintro a l ⟨ms, hat, hl⟩
  refine h (.index i :: a) l ⟨ms, ?_, hl⟩
  rw [Json.at?, hget]
  exact hat

theorem plainKeys_scalar {j : Json} (hj : j.isComposite = false) : j.PlainKeys := by
  rintro (_ | ⟨step, a⟩) k ⟨ms, hat, -⟩
  · rw [Option.some.inj hat] at hj
    cases hj
  · rw [Json.at?_scalar hj (List.cons_ne_nil _ _)] at hat
    cases hat

theorem plainKeys_arr {js : List Json} (h : ∀ j ∈ js, j.PlainKeys) : (Json.arr js).PlainKeys := by
  intro a k hmember
  obtain ⟨i, v, b, -, hget, hv⟩ := hmember.of_arr
  exact h v (List.mem_of_getElem? hget) b k hv

theorem plainKeys_obj {ms : Members} (h : ∀ m ∈ ms, PlainName m.1 ∧ m.2.PlainKeys) :
    (Json.obj ms).PlainKeys := by
  intro a k hmember
  rcases hmember.of_obj with ⟨-, hk⟩ | ⟨l, v, b, -, hget, hv⟩
  · obtain ⟨m, hmem, rfl⟩ := List.mem_map.1 hk
    exact (h m hmem).1
  · exact (h _ (Entries.mem_of_get? hget)).2 b k hv

/-- **References are names of their own**: members at different addresses have different ones. -/
theorem reference_inj {j : Json} (hplain : j.PlainKeys) (hpl : ∀ l, pl.owner? = some l → PlainName l)
    (ha : j.HasMember a k) (hb : j.HasMember b k') (h : pl.reference a k = pl.reference b k') :
    a = b ∧ k = k' := by
  have hk := hplain a k ha
  have hk' := hplain b k' hb
  induction a generalizing pl j b with
  | nil =>
    obtain ⟨ms, rfl, -⟩ := ha.nil
    rcases hb.of_obj with ⟨rfl, -⟩ | ⟨l, v, b, rfl, hget, -⟩
    · exact ⟨rfl, memberPath_inj hk hk' h⟩
    · exact absurd h (reference_ne_of_key hk (hplain.member hget).1)
  | cons step a ih =>
    cases step with
    | key l =>
      obtain ⟨ms, v, rfl, hget, hv⟩ := ha.key
      obtain ⟨hl, hvplain⟩ := hplain.member hget
      rcases hb.of_obj with ⟨rfl, -⟩ | ⟨l', v', b, rfl, hget', hv'⟩
      · exact absurd h.symm (reference_ne_of_key hk' hl)
      · obtain rfl : l = l' := key_inj hl (hplain.member hget').1 h
        obtain rfl : v = v' := Option.some.inj (hget.symm.trans hget')
        have howner : ∀ l', (Place.member pl.path l).owner? = some l' → PlainName l' := by
          rintro l' ⟨⟩
          exact hl
        obtain ⟨rfl, rfl⟩ := ih hvplain howner hv hv' h
        exact ⟨rfl, rfl⟩
    | index i =>
      obtain ⟨js, v, rfl, hget, hv⟩ := ha.index
      obtain ⟨i', v', b, rfl, hget', hv'⟩ := hb.of_arr
      obtain rfl : i = i' := nth_inj hpl h
      obtain rfl : v = v' := Option.some.inj (hget.symm.trans hget')
      obtain ⟨rfl, rfl⟩ := ih (hplain.item hget) (owner?_nth pl i) hv hv' h
      exact ⟨rfl, rfl⟩

/-! ## Walks -/

theorem exists_hasMember_of_reference {j : Json} (hj : j.Distinct) {r : String}
    (hr : r ∈ (Pass.idle.visits pl j).map MemberVisit.reference) :
    ∃ a k, j.HasMember a k ∧ r = pl.reference a k := by
  obtain ⟨m, hm, rfl⟩ := List.mem_map.1 hr
  obtain ⟨a, ms, hat, hpath, hget, -⟩ := (Pass.mem_visits_idle_iff hj).1 hm
  refine ⟨a, m.key, ⟨ms, hat, Entries.mem_keys_of_mem (Entries.mem_of_get? hget)⟩, ?_⟩
  rw [Place.reference, hpath]
  rfl

def memberReferences (pl : Place) (k : String) (v : Json) : List String :=
  (if v.isArray then [] else [memberPath pl.path k]) ++
    (Pass.idle.visits (.member pl.path k) v).map MemberVisit.reference

theorem exists_mark_of_memberReferences {v : Json} (hv : v.Distinct) {r : String}
    (hr : r ∈ memberReferences pl k v) :
    ∃ i? rest, EndsName rest ∧ r = pl.path ++ mark k i? ++ rest := by
  rcases List.mem_append.1 hr with hr | hr
  · split at hr
    · exact absurd hr List.not_mem_nil
    · refine ⟨none, "", endsName_empty, ?_⟩
      rw [String.append_empty, List.mem_singleton.1 hr]
      exact memberPath_eq_mark pl.path k
  · obtain ⟨a, k', -, rfl⟩ := exists_hasMember_of_reference hv hr
    obtain ⟨rest, hrest, -, heq⟩ := exists_reference (.member pl.path k) a k'
    exact ⟨firstIndex? a, rest, hrest, heq⟩

theorem memberVisits_references (pl : Place) (v : Json) (ms : Members) :
    (Pass.idle.memberVisits pl [] ((k, v) :: ms)).map MemberVisit.reference =
      memberReferences pl k v ++ (Pass.idle.memberVisits pl [] ms).map MemberVisit.reference := by
  rw [Pass.memberVisits_idle_cons, List.map_append, List.map_append, memberReferences]
  split <;> rfl

theorem exists_memberReferences {ms : Members} {r : String}
    (hr : r ∈ (Pass.idle.memberVisits pl [] ms).map MemberVisit.reference) :
    ∃ m ∈ ms, r ∈ memberReferences pl m.1 m.2 := by
  induction ms with
  | nil => exact absurd hr List.not_mem_nil
  | cons m ms ih =>
    obtain ⟨k, v⟩ := m
    rw [memberVisits_references] at hr
    rcases List.mem_append.1 hr with hr | hr
    · exact ⟨(k, v), List.mem_cons_self, hr⟩
    · obtain ⟨m, hmem, hr⟩ := ih hr
      exact ⟨m, List.mem_cons_of_mem _ hmem, hr⟩

mutual

theorem nodup_references (pl : Place) (hpl : ∀ l, pl.owner? = some l → PlainName l) (j : Json)
    (hj : j.Distinct) (hplain : j.PlainKeys) :
    ((Pass.idle.visits pl j).map MemberVisit.reference).Nodup := by
  cases j with
  | arr js =>
    rw [Pass.visits]
    exact nodup_itemReferences pl hpl 0 js (distinct_arr.1 hj) fun i v hget => hplain.item hget
  | obj ms =>
    obtain ⟨hnodup, hms⟩ := distinct_obj.1 hj
    rw [Pass.visits]
    exact nodup_memberReferences pl ms hnodup hms fun m hmem =>
      hplain.member (Entries.get?_of_mem hnodup hmem)
  | _ => exact List.nodup_nil

theorem nodup_memberReferences (pl : Place) (ms : List (String × Json)) (hnodup : (keys ms).Nodup)
    (hms : DistinctMembers ms) (hplain : ∀ m ∈ ms, PlainName m.1 ∧ m.2.PlainKeys) :
    ((Pass.idle.memberVisits pl [] ms).map MemberVisit.reference).Nodup := by
  match ms with
  | [] => exact List.nodup_nil
  | (k, v) :: ms =>
    obtain ⟨hk, hv⟩ := hplain (k, v) List.mem_cons_self
    rw [Entries.keys_cons, List.nodup_cons] at hnodup
    have howner : ∀ l, (Place.member pl.path k).owner? = some l → PlainName l := by
      rintro l ⟨⟩
      exact hk
    have hinner := nodup_references (.member pl.path k) howner v hms.1 hv
    have hrest := nodup_memberReferences pl ms hnodup.2 hms.2 fun m hmem =>
      hplain m (List.mem_cons_of_mem _ hmem)
    rw [memberVisits_references]
    refine List.nodup_append'.2 ⟨?_, hrest, ?_⟩
    · rw [memberReferences]
      split
      · exact hinner
      · refine List.nodup_cons.2 ⟨fun hr => ?_, hinner⟩
        obtain ⟨a, k', -, h⟩ := exists_hasMember_of_reference hms.1 hr
        exact reference_ne_of_key hk hk h
    · -- What is met in two members shows both of their keys.
      intro r hr hr'
      obtain ⟨m, hmem, hr'⟩ := exists_memberReferences hr'
      obtain ⟨i?, rest, hends, heq⟩ := exists_mark_of_memberReferences hms.1 hr
      obtain ⟨i?', rest', hends', heq'⟩ :=
        exists_mark_of_memberReferences (distinctMembers_iff.1 hms.2 m hmem) hr'
      have hm := (hplain m (List.mem_cons_of_mem _ hmem)).1
      obtain rfl := (mark_inj hk hm hends hends' (heq.symm.trans heq')).1
      exact hnodup.1 (Entries.mem_keys_of_mem hmem)

theorem nodup_itemReferences (pl : Place) (hpl : ∀ l, pl.owner? = some l → PlainName l) (i : Nat)
    (js : List Json) (hjs : DistinctItems js) (hplain : ∀ (n : Nat) v, js[n]? = some v → v.PlainKeys) :
    ((Pass.idle.itemVisits pl i js).map MemberVisit.reference).Nodup := by
  match js with
  | [] => exact List.nodup_nil
  | j :: js =>
    have hfirst := nodup_references (pl.nth i) (owner?_nth pl i) j hjs.1 (hplain 0 j rfl)
    have hrest := nodup_itemReferences pl hpl (i + 1) js hjs.2 fun n v hget => hplain (n + 1) v hget
    rw [Pass.itemVisits, List.map_append]
    refine List.nodup_append'.2 ⟨hfirst, hrest, ?_⟩
    intro r hr hr'
    obtain ⟨m, hm, rfl⟩ := List.mem_map.1 hr'
    obtain ⟨n, x, hget, hm⟩ := Pass.mem_itemVisits_idle.1 hm
    have hx := distinctItems_iff.1 hjs.2 x (List.mem_of_getElem? hget)
    obtain ⟨a, k, -, h⟩ := exists_hasMember_of_reference hjs.1 hr
    obtain ⟨b, k', -, h'⟩ := exists_hasMember_of_reference hx (List.mem_map_of_mem hm)
    have hi : i = i + 1 + n := nth_inj hpl (h.symm.trans h')
    omega

end

/-- **The references of a walk**: a visitor that changes nothing comes to the end of its walk, meets the
members that hold no array, wherever they are, and meets no reference twice. Where keys have no dots and
no brackets, a reference is that of one member of the document. -/
theorem walk_references_distinct {σ : Type} {v : Visitor σ} (hv : v.ReadOnly) (room : Nat) (s : σ)
    {j : Json} (hj : j.Distinct) (hplain : j.PlainKeys) (path : String) :
    (∃ s' refs, walk? v room s j path = some (s', j) ∧
      walk? v.traced room (s, []) j path = some ((s', refs), j) ∧ refs.Nodup ∧
      ∀ r, r ∈ refs ↔ ∃ a ms k x, j.at? a = some (.obj ms) ∧ get? ms k = some x ∧
        x.isArray = false ∧ r = (Place.here path).reference a k) ∧
      ∀ a k b k', j.HasMember a k → j.HasMember b k' →
        (Place.here path).reference a k = (Place.here path).reference b k' → a = b ∧ k = k' := by
  have hroot : ∀ l, (Place.here path).owner? = some l → PlainName l := fun l h => nomatch h
  obtain ⟨s', hwalk⟩ := walk?_traced_eq hv room s hj path
  refine ⟨⟨s', _, ?_, hwalk, nodup_references _ hroot j hj hplain, fun r => ?_⟩, ?_⟩
  · rw [walk?_traced_fst v room s [] j path, hwalk]
    rfl
  · constructor
    · intro hr
      obtain ⟨m, hm, rfl⟩ := List.mem_map.1 hr
      obtain ⟨a, ms, hat, hpath, hget, harr⟩ := (Pass.mem_visits_idle_iff hj).1 hm
      refine ⟨a, ms, m.key, m.value, hat, hget, harr, ?_⟩
      rw [Place.reference, hpath]
      rfl
    · rintro ⟨a, ms, k, x, hat, hget, harr, rfl⟩
      exact List.mem_map.2 ⟨_, Pass.visit_of_address hat hget harr, rfl⟩
  · intro a k b k' ha hb h
    exact reference_inj hplain hroot ha hb h

/-- Objects and arrays in each other, and keys that look like indices. -/
def nestedChart : Json :=
  .obj [("xSrc", .str "Sales"),
    ("series", .arr [.arr [.obj [("xSrc", .str "Region"), ("0", .obj [("xSrc", .null)])]],
      .obj [("0", .arr [.obj [("xSrc", .str "Sales")]])]])]

def countingVisitor : Visitor Nat where
  member n _ ms _ := (n + 1, ms)
  element n _ js _ := (n + 1, js)
  leaf n _ _ _ := n + 1

/-- Five members are met in a walk of nine visits. -/
theorem walk_references_distinct_nested :
    countingVisitor.ReadOnly ∧ nestedChart.Distinct ∧ nestedChart.PlainKeys ∧
      ((∃ n refs, walk? countingVisitor 0 0 nestedChart "options" = some (n, nestedChart) ∧
        walk? countingVisitor.traced 0 (0, []) nestedChart "options" =
          some ((n, refs), nestedChart) ∧ refs.Nodup ∧
        ∀ r, r ∈ refs ↔ ∃ a ms k x, nestedChart.at? a = some (.obj ms) ∧ get? ms k = some x ∧
          x.isArray = false ∧ r = (Place.here "options").reference a k) ∧
        ∀ a k b k', nestedChart.HasMember a k → nestedChart.HasMember b k' →
          (Place.here "options").reference a k = (Place.here "options").reference b k' →
            a = b ∧ k = k') ∧
      (walk? countingVisitor.traced 0 (0, []) nestedChart "options").map Prod.fst =
        some (9, ["options.xSrc", "options[0].series.0.xSrc", "options[0].series.0.0",
          "options[0].series.0.0.xSrc", "options[1].series[0].0.xSrc"]) := by
  have hv : countingVisitor.ReadOnly := ⟨fun _ _ _ _ => rfl, fun _ _ _ _ => rfl⟩
  have hj : nestedChart.Distinct := by
    simp [nestedChart, DistinctMembers, DistinctItems, Json.Distinct]
  have hsource : PlainName "xSrc" := by simp [PlainName]
  have hindex : PlainName "0" := by simp [PlainName]
  have hseries : PlainName "series" := by simp [PlainName]
  have htext (s : String) : (Json.str s).PlainKeys := plainKeys_scalar rfl
  have hsourceOf (x : Json) (hx : x.PlainKeys) : (Json.obj [("xSrc", x)]).PlainKeys :=
    plainKeys_obj (by simp [hsource, hx])
  have hobject : (Json.obj [("xSrc", .str "Region"), ("0", .obj [("xSrc", .null)])]).PlainKeys :=
    plainKeys_obj (by simp [hsource, hindex, htext, hsourceOf .null (plainKeys_scalar rfl)])
  have harray : (Json.obj [("0", .arr [.obj [("xSrc", .str "Sales")]])]).PlainKeys :=
    plainKeys_obj (by simp [hindex, plainKeys_arr, hsourceOf _ (htext "Sales")])
  have hplain : nestedChart.PlainKeys :=
    plainKeys_obj (by simp [hsource, hseries, htext, hobject, harray, plainKeys_arr])
  exact ⟨hv, hj, hplain, walk_references_distinct hv 0 0 hj hplain "options", by cbv⟩

end ChartTemplate
