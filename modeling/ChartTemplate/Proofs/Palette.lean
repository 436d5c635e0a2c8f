import ChartTemplate.Palette
import ChartTemplate.Proofs.Table.Construction

/-!
# Palettes are stable

New keys go to the end of the keys of a palette, as names of columns do (`Table.addNames`), so the slot of a
key is its place, and stays so (`after_ofKeys`). The colors of keys that are asked for in turn can therefore
be read off the keys that the palette has at the end (`answers_ofKeys`), and these are the distinct keys in
the order in which they first came. `Palette.answers_ofColors` : the `n`th of them has the `n`th color, the
colors being handed out over and over.
-/

namespace ChartTemplate

namespace Palette

/-- The palette after keys are asked for in turn. -/
def after (p : Palette) (keys : List String) : Palette :=
  keys.foldl (fun p key => (p.color key).1) p

/-- The colors of keys that are asked for in turn. -/
def answers (p : Palette) : List String → List String
  | [] => []
  | key :: keys => (p.color key).2 :: (p.color key).1.answers keys

/-- How many other keys came before a key first came. -/
def slot (keys : List String) (key : String) : Nat :=
  keys.eraseDups.idxOf key

/-! ## Slots as places -/

/-- The palette in which keys have their places as slots. -/
def ofKeys (colors keys : List String) : Palette :=
  ⟨colors, keys.zipIdx⟩

theorem get?_zipIdx (keys : List String) (key : String) (n : Nat) :
    Entries.get? (keys.zipIdx n) key = if key ∈ keys then some (n + keys.idxOf key) else none := by
  induction keys generalizing n with
  | nil => rfl
  | cons k keys ih =>
    rw [List.zipIdx_cons, Entries.get?_cons, ih]
    by_cases hk : k = key
    · simp [hk]
    · have hk' : key ≠ k := Ne.symm hk
      simp [hk, hk', List.idxOf_cons_ne, Nat.add_assoc, Nat.add_comm 1]

theorem keys_zipIdx (keys : List String) (n : Nat) : Entries.keys (keys.zipIdx n) = keys :=
  List.zipIdx_map_fst n keys

theorem color_ofKeys (colors keys : List String) (key : String) :
    (ofKeys colors keys).color key =
      (ofKeys colors (Table.addNames keys [key]), (ofKeys colors keys).colorAt (keys.idxOf key)) := by
  have hget : Entries.get? (ofKeys colors keys).assigned key = _ := get?_zipIdx keys key 0
  rw [color, hget]
  by_cases hkey : key ∈ keys
  · simp [Table.addNames, hkey]
  · have hnew : key ∉ Entries.keys keys.zipIdx := by rwa [keys_zipIdx]
    simp [Table.addNames, hkey, ofKeys, Entries.insert_of_not_mem hnew, List.zipIdx_append]

/-! ## Keys in turn -/

/-- **Slots are places**, whatever keys are asked for. -/
theorem after_ofKeys (colors keys new : List String) :
    (ofKeys colors keys).after new = ofKeys colors (Table.addNames keys new) := by
  induction new generalizing keys with
  | nil => rfl
  | cons key new ih =>
    show (((ofKeys colors keys).color key).1.after new) = _
    rw [color_ofKeys, ih]
    rfl

theorem idxOf_addNames {keys : List String} {key : String} (hkey : key ∈ keys) (new : List String) :
    (Table.addNames keys new).idxOf key = keys.idxOf key := by
  rw [Table.addNames_eq, List.idxOf_append, if_pos hkey]

theorem idxOf_addNames_cons (keys : List String) (key : String) (new : List String) :
    (Table.addNames keys (key :: new)).idxOf key = keys.idxOf key := by
  by_cases hkey : key ∈ keys
  · exact idxOf_addNames hkey _
  · have hadd : Table.addNames keys (key :: new) = Table.addNames (keys ++ [key]) new := by
      simp [Table.addNames, hkey]
    rw [hadd, idxOf_addNames (by simp), List.idxOf_append, if_neg hkey, List.idxOf_of_notMem hkey]
    simp

/-- **All answers** agree with the keys that the palette has in the end. -/
theorem answers_ofKeys (colors keys new : List String) :
    (ofKeys colors keys).answers new =
      new.map fun key => (ofKeys colors keys).colorAt ((Table.addNames keys new).idxOf key) := by
  induction new generalizing keys with
  | nil => rfl
  | cons key new ih =>
    rw [answers, color_ofKeys, ih, List.map_cons, idxOf_addNames_cons]
    rfl

/-! ## Keys of new palettes -/

theorem addNames_nil (keys : List String) : Table.addNames [] keys = keys.eraseDups := by
  rw [Table.addNames_eq]
  simp

theorem nodup_eraseDups (keys : List String) : keys.eraseDups.Nodup := by
  have h := Table.nodup_addNames List.nodup_nil keys
  rwa [addNames_nil] at h

theorem slot_eq_of_getElem? {keys : List String} {n : Nat} {key : String}
    (h : keys.eraseDups[n]? = some key) : slot keys key = n := by
  obtain ⟨hn, rfl⟩ := List.getElem?_eq_some_iff.1 h
  exact (nodup_eraseDups keys).idxOf_getElem n hn

theorem slot_inj {keys : List String} {key key' : String} (hkey : key ∈ keys) :
    slot keys key = slot keys key' ↔ key = key' :=
  List.idxOf_inj (List.mem_eraseDups.2 hkey)

/-- **Colors** are handed out in the order in which keys first come, over and over. A new palette gives the
key that is the `n`th of the distinct keys the color at `n` modulo the number of colors, as often as it is
asked for. So keys that are equal have equal colors, and different ones among the first keys, as many as there
are colors, have the colors of different places. -/
theorem answers_ofColors {colors : List String} (hcolors : colors ≠ []) (keys : List String) :
    ((ofColors colors).after keys).assigned = keys.eraseDups.zipIdx ∧
      ((ofColors colors).answers keys).map some =
        keys.map (fun key => colors[slot keys key % colors.length]?) ∧
      (∀ n key, keys.eraseDups[n]? = some key → slot keys key = n) ∧
      (∀ i j : Nat, keys[i]? = keys[j]? →
        ((ofColors colors).answers keys)[i]? = ((ofColors colors).answers keys)[j]?) ∧
      ∀ key ∈ keys, ∀ key' ∈ keys, key ≠ key' → slot keys key < colors.length →
        slot keys key' < colors.length →
        slot keys key % colors.length ≠ slot keys key' % colors.length := by
  have hnew : ofColors colors = ofKeys colors [] := by simp [ofColors, ofKeys, hcolors]
  have hanswers : (ofColors colors).answers keys =
      keys.map fun key => colors.getD (slot keys key % colors.length) "" := by
    rw [hnew, answers_ofKeys, addNames_nil]
    rfl
  refine ⟨?_, ?_, fun n key => slot_eq_of_getElem?, ?_, ?_⟩
  · rw [hnew, after_ofKeys, addNames_nil]
    rfl
  · rw [hanswers, List.map_map]
    refine List.map_congr_left fun key _ => ?_
    have hlt : slot keys key % colors.length < colors.length :=
      Nat.mod_lt _ (List.length_pos_iff.2 hcolors)
    simp [List.getD_eq_getElem?_getD, List.getElem?_eq_getElem hlt]
  · intro i j hij
    rw [hanswers, List.getElem?_map, List.getElem?_map, hij]
  · intro key hkey key' _ hne hlt hlt'
    rw [Nat.mod_eq_of_lt hlt, Nat.mod_eq_of_lt hlt']
    exact mt (slot_inj hkey).1 hne

/-- Three keys share two colors. -/
theorem answers_ofColors_three :
    ["red", "blue"] ≠ [] ∧
      ((ofColors ["red", "blue"]).answers ["a", "b", "a", "c"]).map some =
        [some "red", some "blue", some "red", some "red"] ∧
      slot ["a", "b", "a", "c"] "c" = 2 :=
  have hcolors : ["red", "blue"] ≠ [] := by decide
  have h := answers_ofColors hcolors ["a", "b", "a", "c"]
  ⟨hcolors, h.2.1.trans (by decide +kernel), h.2.2.1 2 "c" (by decide +kernel)⟩

end Palette

end ChartTemplate
