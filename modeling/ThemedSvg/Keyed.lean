/-
# Lists in the order of their keys

Parameter sets and sprite maps are lists of pairs with strictly increasing keys,
compared by code point. That makes the list of a map unique: maps with the same
values under the same keys are the same list, in the order they are shown.
-/

namespace ThemedSvg.Keyed

variable {β : Type}

/-- The keys increase strictly, so no key occurs twice. -/
def Ordered (entries : List (String × β)) : Prop :=
  entries.Pairwise fun a b => a.1 < b.1

instance (entries : List (String × β)) : Decidable (Ordered entries) :=
  inferInstanceAs (Decidable (List.Pairwise _ entries))

/-- Puts a value at a key; a value that was there before is replaced. -/
def insert (key : String) (value : β) : List (String × β) → List (String × β)
  | [] => [(key, value)]
  | (k, v) :: rest =>
      if key < k then (key, value) :: (k, v) :: rest
      else if key = k then (key, value) :: rest
      else (k, v) :: insert key value rest

/-- The value at a key. -/
def find? (key : String) : List (String × β) → Option β
  | [] => none
  | (k, v) :: rest => if key = k then some v else find? key rest

/-- Puts every entry of `above` on top of `base`, in order. -/
def insertAll (above base : List (String × β)) : List (String × β) :=
  above.foldl (fun entries (k, v) => insert k v entries) base

theorem key_of_mem_insert {key : String} {value : β} {entries : List (String × β)}
    {entry : String × β} (h : entry ∈ insert key value entries) :
    entry = (key, value) ∨ entry ∈ entries := by
  induction entries with
  | nil => simpa [insert] using h
  | cons head rest ih =>
      obtain ⟨k, v⟩ := head
      unfold insert at h
      split at h
      · simpa using h
      · split at h
        · rcases List.mem_cons.1 h with h | h
          · exact .inl h
          · exact .inr (List.mem_cons_of_mem _ h)
        · rcases List.mem_cons.1 h with h | h
          · exact .inr (h ▸ List.mem_cons_self)
          · exact (ih h).imp id (List.mem_cons_of_mem _)

theorem ordered_insert {key : String} {value : β} {entries : List (String × β)}
    (h : Ordered entries) : Ordered (insert key value entries) := by
  induction entries with
  | nil => simp [insert, Ordered]
  | cons head rest ih =>
      obtain ⟨k, v⟩ := head
      have hrest : Ordered rest := (List.pairwise_cons.1 h).2
      have hk : ∀ e ∈ rest, k < e.1 := (List.pairwise_cons.1 h).1
      unfold insert
      split
      · next hlt =>
          refine List.pairwise_cons.2 ⟨fun e he => ?_, h⟩
          rcases List.mem_cons.1 he with rfl | he
          · exact hlt
          · exact String.lt_trans hlt (hk e he)
      · next hnlt =>
          split
          · next heq =>
              subst heq
              exact List.pairwise_cons.2 ⟨hk, hrest⟩
          · next hne =>
              refine List.pairwise_cons.2 ⟨fun e he => ?_, ih hrest⟩
              rcases key_of_mem_insert he with rfl | he
              · exact Classical.byContradiction fun hn =>
                  hne (String.le_antisymm (String.not_lt.1 hn) (String.not_lt.1 hnlt))
              · exact hk e he

theorem ordered_insertAll (above : List (String × β)) {base : List (String × β)}
    (h : Ordered base) : Ordered (insertAll above base) := by
  induction above generalizing base with
  | nil => exact h
  | cons head rest ih => exact ih (ordered_insert h)

@[simp]
theorem find?_insert_self (key : String) (value : β) (entries : List (String × β)) :
    find? key (insert key value entries) = some value := by
  induction entries with
  | nil => simp [insert, find?]
  | cons head rest ih =>
      obtain ⟨k, v⟩ := head
      unfold insert
      split
      · simp [find?]
      · split
        · simp [find?]
        · next hne => simp [find?, hne, ih]

theorem find?_insert_of_ne {key other : String} (h : other ≠ key) (value : β)
    (entries : List (String × β)) :
    find? other (insert key value entries) = find? other entries := by
  induction entries with
  | nil => simp [insert, find?, h]
  | cons head rest ih =>
      obtain ⟨k, v⟩ := head
      unfold insert
      split
      · simp [find?, h]
      · split
        · next heq => subst heq; simp [find?, h]
        · simp [find?, ih]

theorem find?_eq_none_of_lt {key : String} {entries : List (String × β)}
    (h : ∀ e ∈ entries, key < e.1) : find? key entries = none := by
  induction entries with
  | nil => rfl
  | cons head rest ih =>
      have hne : key ≠ head.1 := fun heq =>
        String.lt_irrefl head.1 (heq ▸ h head List.mem_cons_self)
      simp [find?, hne, ih fun e he => h e (List.mem_cons_of_mem _ he)]

/-- A list in key order is determined by what it holds under each key. -/
theorem eq_of_find?_eq {a b : List (String × β)} (ha : Ordered a) (hb : Ordered b)
    (h : ∀ key, find? key a = find? key b) : a = b := by
  induction a generalizing b with
  | nil =>
      cases b with
      | nil => rfl
      | cons head rest => simpa [find?] using h head.1
  | cons first a ih =>
      obtain ⟨k, v⟩ := first
      cases b with
      | nil => simpa [find?] using h k
      | cons second b =>
          obtain ⟨l, w⟩ := second
          have hka := (List.pairwise_cons.1 ha).1
          have hlb := (List.pairwise_cons.1 hb).1
          have hkl : k = l := by
            refine Classical.byContradiction fun hne => ?_
            by_cases hlt : k < l
            · have hnone : find? k ((l, w) :: b) = none := find?_eq_none_of_lt fun e he => by
                rcases List.mem_cons.1 he with rfl | he
                · exact hlt
                · exact String.lt_trans hlt (hlb e he)
              have hk := h k
              rw [hnone] at hk
              simp [find?] at hk
            · have hlk : l < k := Classical.byContradiction fun hn =>
                hne (String.le_antisymm (String.not_lt.1 hn) (String.not_lt.1 hlt))
              have hnone : find? l ((k, v) :: a) = none := find?_eq_none_of_lt fun e he => by
                rcases List.mem_cons.1 he with rfl | he
                · exact hlk
                · exact String.lt_trans hlk (hka e he)
              have hl := h l
              rw [hnone] at hl
              simp [find?] at hl
          subst hkl
          have hvw : v = w := by simpa [find?] using h k
          subst hvw
          refine congrArg _ (ih (List.pairwise_cons.1 ha).2 (List.pairwise_cons.1 hb).2 fun key => ?_)
          have hkey := h key
          by_cases hk : key = k
          · subst hk
            rw [find?_eq_none_of_lt hka, find?_eq_none_of_lt hlb]
          · simpa [find?, hk] using hkey

/-- A key that is there keeps its place, and a new one gets a place of its own. -/
theorem length_insert {key : String} {entries : List (String × β)} (ordered : Ordered entries)
    (value : β) :
    (insert key value entries).length =
      if (find? key entries).isSome then entries.length else entries.length + 1 := by
  induction entries with
  | nil => rfl
  | cons head rest ih =>
      obtain ⟨k, v⟩ := head
      obtain ⟨first, ordered⟩ := List.pairwise_cons.mp ordered
      rw [insert]
      split
      · next before =>
          have absent : find? key ((k, v) :: rest) = none := by
            refine find?_eq_none_of_lt (List.forall_mem_cons.mpr ⟨before, fun entry member => ?_⟩)
            exact String.lt_trans before (first entry member)
          rw [absent]
          rfl
      · split
        · next same =>
            rw [find?, if_pos same]
            rfl
        · next differs =>
            rw [List.length_cons, ih ordered, find?, if_neg differs]
            split <;> rfl

/-- What is put on top hides what is below it under the same keys. -/
theorem find?_insertAll {above : List (String × β)} (ordered : Ordered above)
    (base : List (String × β)) (key : String) :
    find? key (insertAll above base) = (find? key above).or (find? key base) := by
  induction above generalizing base with
  | nil => rfl
  | cons head rest ih =>
      obtain ⟨k, v⟩ := head
      obtain ⟨first, ordered⟩ := List.pairwise_cons.1 ordered
      have later := ih ordered (insert k v base)
      unfold insertAll at later ⊢
      rw [List.foldl_cons, later, find?]
      by_cases same : key = k
      · subst same
        rw [if_pos rfl, find?_eq_none_of_lt first, find?_insert_self]
        rfl
      · rw [if_neg same, find?_insert_of_ne same]

/-- In key order, no key occurs twice. -/
theorem nodup_keys {entries : List (String × β)} (ordered : Ordered entries) :
    (entries.map (·.1)).Nodup := by
  rw [List.Nodup, List.pairwise_map]
  apply ordered.imp
  intro first second before same
  exact String.lt_irrefl _ (same ▸ before)

theorem find?_eq_lookup (key : String) (entries : List (String × β)) :
    find? key entries = entries.lookup key := by
  induction entries with
  | nil => rfl
  | cons head rest ih =>
      obtain ⟨k, v⟩ := head
      rw [find?, List.lookup_cons, ih]
      by_cases same : key = k
      · simp [same]
      · simp [same, beq_false_of_ne same]

/-- If no key occurs twice, an entry is found wherever it stands. -/
theorem lookup_eq_some_iff_mem {entries : List (String × β)} {key : String} {value : β}
    (distinct : (entries.map (·.1)).Nodup) :
    entries.lookup key = some value ↔ (key, value) ∈ entries := by
  induction entries with
  | nil => simp
  | cons first rest ih =>
      obtain ⟨k, v⟩ := first
      obtain ⟨absent, distinct⟩ := List.nodup_cons.mp distinct
      rw [List.lookup_cons, List.mem_cons, Prod.mk.injEq]
      by_cases same : key = k
      · have elsewhere : (key, value) ∉ rest := fun member =>
          absent (List.mem_map.mpr ⟨_, member, same⟩)
        simp [same ▸ elsewhere, same, eq_comm]
      · rw [beq_false_of_ne same]
        simp [same, ih distinct]

/-- Of what is put on top, the last entry of a key counts. -/
theorem find?_insertAll_eq_or (above base : List (String × β)) (key : String) :
    find? key (insertAll above base) = (above.reverse.lookup key).or (find? key base) := by
  unfold insertAll
  induction above generalizing base with
  | nil => rfl
  | cons entry rest ih =>
      rw [List.foldl_cons, ih, List.reverse_cons, List.lookup_append, Option.or_assoc]
      congr 1
      by_cases same : key = entry.1
      · subst same
        rw [find?_insert_self, List.lookup_cons_self, Option.some_or]
      · rw [find?_insert_of_ne same, List.lookup_cons, beq_false_of_ne same]
        rfl

/-- What is there comes from what was put on top, or was there before. -/
theorem mem_of_mem_insertAll {above base : List (String × β)} {entry : String × β}
    (member : entry ∈ insertAll above base) : entry ∈ above ∨ entry ∈ base := by
  induction above generalizing base with
  | nil => exact .inr member
  | cons head rest ih =>
      rcases ih member with later | here
      · exact .inl (List.mem_cons_of_mem _ later)
      · rcases key_of_mem_insert here with rfl | before
        · exact .inl List.mem_cons_self
        · exact .inr before

end ThemedSvg.Keyed
