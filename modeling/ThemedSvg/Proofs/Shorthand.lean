/-
# Shorthands

A shorthand says what its fragments say, one after the other, and so it comes to a list of
pairs of which the last one for a key counts. Two things follow. Shorthands with a semicolon
between them say what they say laid over each other. And parameters without the marks of a
shorthand in them come back from it, which are just those that a shorthand can give.
-/

import ThemedSvg.Params

namespace ThemedSvg

/-! ## Parameters by what they hold -/

namespace Params

/-- What is there for a key, be it empty. -/
def held? (params : Params) (key : String) : Option String := Keyed.find? key params.entries

/-- Parameters are what they hold. -/
theorem ext_held? {params other : Params} (same : ∀ key, params.held? key = other.held? key) :
    params = other := by
  have entries := Keyed.eq_of_find?_eq params.ordered other.ordered same
  cases params
  cases other
  subst entries
  rfl

theorem get?_eq_filter_held? (params : Params) (key : String) :
    params.get? key = (params.held? key).filter (· != "") := rfl

@[simp]
theorem held?_empty (key : String) : empty.held? key = none := rfl

@[simp]
theorem held?_mergedOver (params defaults : Params) (key : String) :
    (params.mergedOver defaults).held? key = (params.held? key).or (defaults.held? key) :=
  Keyed.find?_insertAll params.ordered defaults.entries key

theorem entries_ofPairs (pairs : List (String × String)) :
    (ofPairs pairs).entries = Keyed.insertAll pairs [] := by
  have run (params : Params) :
      (pairs.foldl (fun params pair => params.insert pair.1 pair.2) params).entries =
        Keyed.insertAll pairs params.entries := by
    induction pairs generalizing params with
    | nil => rfl
    | cons pair rest ih => exact ih _
  exact run empty

theorem held?_ofPairs (pairs : List (String × String)) (key : String) :
    (ofPairs pairs).held? key = pairs.reverse.lookup key := by
  rw [held?, entries_ofPairs, Keyed.find?_insertAll_eq_or]
  exact Option.or_none

/-- What is held comes from one of the pairs. -/
theorem mem_of_mem_ofPairs {pairs : List (String × String)} {entry : String × String}
    (member : entry ∈ (ofPairs pairs).entries) : entry ∈ pairs := by
  rw [entries_ofPairs] at member
  exact (Keyed.mem_of_mem_insertAll member).resolve_right List.not_mem_nil

/-! ## Merging -/

theorem mergedOver_assoc (params middle defaults : Params) :
    (params.mergedOver middle).mergedOver defaults =
      params.mergedOver (middle.mergedOver defaults) := by
  apply ext_held?
  intro key
  simp only [held?_mergedOver, Option.or_assoc]

@[simp]
theorem mergedOver_empty (params : Params) : params.mergedOver empty = params := by
  apply ext_held?
  intro key
  rw [held?_mergedOver, held?_empty, Option.or_none]

@[simp]
theorem empty_mergedOver (defaults : Params) : empty.mergedOver defaults = defaults := by
  apply ext_held?
  intro key
  rw [held?_mergedOver, held?_empty, Option.none_or]

/-- A key that is there hides the default, be its value empty. -/
theorem get?_mergedOver_eq_ite (params defaults : Params) (key : String) :
    (params.mergedOver defaults).get? key =
      if (params.held? key).isSome then params.get? key else defaults.get? key := by
  rw [get?_eq_filter_held?, held?_mergedOver]
  cases held : params.held? key with
  | none => rfl
  | some value => rw [Option.some_or, get?_eq_filter_held?, held, Option.isSome_some, if_pos rfl]

/-- Pairs behind other pairs are laid over them. -/
theorem ofPairs_append (first second : List (String × String)) :
    ofPairs (first ++ second) = (ofPairs second).mergedOver (ofPairs first) := by
  apply ext_held?
  intro key
  rw [held?_mergedOver, held?_ofPairs, held?_ofPairs, held?_ofPairs, List.reverse_append,
    List.lookup_append]

/-! ## Reading -/

/-- The pair that a fragment says, if it has a colon. -/
def pair? (fragment : List Char) : Option (String × String) :=
  (Text.splitFirst ':' fragment).map fun (key, value) => (String.ofList key, String.ofList value)

/-- The pairs that a shorthand says, in the order of their fragments. -/
def pairsOf (shorthand : List Char) : List (String × String) :=
  ((significant shorthand).splitOn ';').filterMap pair?

theorem ofShorthand_eq_ofPairs (shorthand : String) :
    ofShorthand shorthand = ofPairs (pairsOf shorthand.toList) := by
  rw [ofShorthand, ofPairs, pairsOf, List.foldl_filterMap]
  congr 1
  funext params fragment
  rw [addFragment, pair?]
  cases Text.splitFirst ':' fragment <;> rfl

theorem pairsOf_append (first second : List Char) :
    pairsOf (first ++ ';' :: second) = pairsOf first ++ pairsOf second := by
  have mark : significant (';' :: second) = ';' :: significant second := rfl
  rw [pairsOf, significant, List.filter_append, ← significant, ← significant, mark,
    List.splitOn_append_cons_self, List.filterMap_append]
  rfl

/-- Shorthands with a semicolon between them say what they say laid over each other. -/
theorem ofShorthand_append (first second : String) :
    ofShorthand (first ++ ";" ++ second) =
      (ofShorthand second).mergedOver (ofShorthand first) := by
  have together : (first ++ ";" ++ second).toList = first.toList ++ ';' :: second.toList := by
    simp
  rw [ofShorthand_eq_ofPairs, together, pairsOf_append, ofPairs_append, ← ofShorthand_eq_ofPairs,
    ← ofShorthand_eq_ofPairs]

/-! ## What a shorthand can say -/

/-- A key that can stand in a shorthand. -/
def SpellableKey (key : String) : Prop :=
  ∀ c ∈ key.toList, c ≠ ':' ∧ c ≠ ';' ∧ c ≠ '"' ∧ Text.isSpace c = false

/-- A value that can stand in a shorthand. It may have colons in it, as only the first one of
a fragment cuts. -/
def SpellableValue (value : String) : Prop :=
  ∀ c ∈ value.toList, c ≠ ';' ∧ c ≠ '"' ∧ Text.isSpace c = false

instance (key : String) : Decidable (SpellableKey key) :=
  List.decidableBAll _ _

instance (value : String) : Decidable (SpellableValue value) :=
  List.decidableBAll _ _

def SpellablePair (pair : String × String) : Prop := SpellableKey pair.1 ∧ SpellableValue pair.2

instance (pair : String × String) : Decidable (SpellablePair pair) :=
  inferInstanceAs (Decidable (_ ∧ _))

/-- Parameters that can be written as a shorthand. -/
def Spellable (params : Params) : Prop := ∀ entry ∈ params.entries, SpellablePair entry

instance (params : Params) : Decidable params.Spellable :=
  inferInstanceAs (Decidable (∀ entry ∈ params.entries, _))

theorem SpellableKey.value {key : String} (spellable : SpellableKey key) : SpellableValue key :=
  fun c member => (spellable c member).2

theorem mem_significant {c : Char} {text : List Char} :
    c ∈ significant text ↔ c ∈ text ∧ c ≠ '"' ∧ Text.isSpace c = false := by
  simp [significant, and_comm]

/-- Nothing of a value that can be spelled is left out. -/
theorem significant_of_spellable {value : String} (spellable : SpellableValue value) :
    significant value.toList = value.toList := by
  rw [significant, List.filter_eq_self]
  intro c member
  obtain ⟨_, noQuote, noSpace⟩ := spellable c member
  simp [noQuote, noSpace]

/-- A shorthand says nothing but what can be spelled. -/
theorem spellable_of_mem_pairsOf {text : List Char} {pair : String × String}
    (member : pair ∈ pairsOf text) : SpellablePair pair := by
  obtain ⟨fragment, isFragment, isPair⟩ := List.mem_filterMap.mp member
  obtain ⟨⟨key, value⟩, cut, rfl⟩ := Option.map_eq_some_iff.mp isPair
  obtain ⟨rfl, noColon⟩ := Text.splitFirst_eq_some cut
  obtain ⟨noMark, inside⟩ := Text.of_mem_splitOn isFragment
  have plain (c : Char) (here : c ∈ key ++ ':' :: value) :
      c ≠ ';' ∧ c ≠ '"' ∧ Text.isSpace c = false :=
    ⟨fun same => noMark (same ▸ here), (mem_significant.mp (inside here)).2⟩
  constructor
  · intro c inKey
    rw [String.toList_ofList] at inKey
    exact ⟨fun same => noColon (same ▸ inKey), plain c (List.mem_append_left _ inKey)⟩
  · intro c inValue
    rw [String.toList_ofList] at inValue
    exact plain c (List.mem_append_right _ (List.mem_cons_of_mem _ inValue))

theorem spellable_ofShorthand (text : String) : (ofShorthand text).Spellable := by
  intro entry member
  rw [ofShorthand_eq_ofPairs] at member
  exact spellable_of_mem_pairsOf (mem_of_mem_ofPairs member)

/-- No shorthand gives a key that cannot be spelled. -/
theorem held?_ofShorthand_eq_none {key : String} (unspellable : ¬ SpellableKey key)
    (text : String) : (ofShorthand text).held? key = none := by
  rw [Option.eq_none_iff_forall_ne_some]
  intro value held
  rw [held?, Keyed.find?_eq_lookup,
    Keyed.lookup_eq_some_iff_mem (Keyed.nodup_keys (ofShorthand text).ordered)] at held
  exact unspellable (spellable_ofShorthand text _ held).1

theorem spellableKey_append (first second : String) :
    SpellableKey (first ++ second) ↔ SpellableKey first ∧ SpellableKey second := by
  rw [SpellableKey, String.toList_append, List.forall_mem_append]
  rfl

/-! ## Writing -/

/-- A pair as a fragment. -/
def fragment (pair : String × String) : String := pair.1 ++ ":" ++ pair.2

/-- Pairs as a shorthand: their fragments with semicolons between them. -/
def shorthand (pairs : List (String × String)) : String :=
  ";".intercalate (pairs.map fragment)

theorem toList_fragment (pair : String × String) :
    (fragment pair).toList = pair.1.toList ++ ':' :: pair.2.toList := by
  simp [fragment]

theorem spellable_fragment {pair : String × String} (spellable : SpellablePair pair) :
    SpellableValue (fragment pair) := by
  intro c member
  rw [toList_fragment, List.mem_append, List.mem_cons] at member
  rcases member with inKey | rfl | inValue
  · exact spellable.1.value c inKey
  · decide
  · exact spellable.2 c inValue

theorem pairsOf_fragment {pair : String × String} (spellable : SpellablePair pair) :
    pairsOf (fragment pair).toList = [pair] := by
  have noColon : ':' ∉ pair.1.toList := fun member => (spellable.1 ':' member).1 rfl
  have noMark : ';' ∉ (fragment pair).toList :=
    fun member => (spellable_fragment spellable ';' member).1 rfl
  have isPair : pair? (fragment pair).toList = some pair := by
    rw [pair?, toList_fragment, Text.splitFirst_append noColon]
    simp
  rw [pairsOf, significant_of_spellable (spellable_fragment spellable),
    List.splitOn_eq_singleton noMark, List.filterMap_cons_some isPair, List.filterMap_nil]

/-- What is written is what is read. -/
theorem pairsOf_shorthand {pairs : List (String × String)}
    (spellable : ∀ pair ∈ pairs, SpellablePair pair) :
    pairsOf (shorthand pairs).toList = pairs := by
  induction pairs with
  | nil => rfl
  | cons pair rest ih =>
      obtain ⟨here, later⟩ := List.forall_mem_cons.mp spellable
      cases rest with
      | nil => exact pairsOf_fragment here
      | cons next rest =>
          have text : (shorthand (pair :: next :: rest)).toList =
              (fragment pair).toList ++ ';' :: (shorthand (next :: rest)).toList := by
            simp [shorthand, String.intercalate_cons_cons]
          rw [text, pairsOf_append, pairsOf_fragment here, ih later, List.singleton_append]

/-- One fragment gives one parameter. -/
theorem ofShorthand_fragment {pair : String × String} (spellable : SpellablePair pair) :
    ofShorthand (fragment pair) = ofPairs [pair] := by
  rw [ofShorthand_eq_ofPairs, pairsOf_fragment spellable]

/-- The order in which parameters are set does not matter if each is set once. -/
theorem ofPairs_of_perm {params : Params} {pairs : List (String × String)}
    (perm : pairs.Perm params.entries) : ofPairs pairs = params := by
  have distinct := Keyed.nodup_keys params.ordered
  have turned : pairs.reverse.Perm params.entries := (List.reverse_perm pairs).trans perm
  apply ext_held?
  intro key
  ext value
  rw [held?_ofPairs, held?, Keyed.find?_eq_lookup, Keyed.lookup_eq_some_iff_mem distinct,
    Keyed.lookup_eq_some_iff_mem ((turned.map _).nodup_iff.mpr distinct), turned.mem_iff]

/-- A text with characters strewn over it that do not count. -/
inductive Strewn : List Char → List Char → Prop
  | done : Strewn [] []
  | keep {text strewn : List Char} (c : Char) :
      Strewn text strewn → Strewn (c :: text) (c :: strewn)
  | ignored {text strewn : List Char} {c : Char} : (c = '"' ∨ Text.isSpace c = true) →
      Strewn text strewn → Strewn text (c :: strewn)

theorem Strewn.significant_eq {text strewn : List Char} (isStrewn : Strewn text strewn) :
    significant strewn = significant text := by
  induction isStrewn with
  | done => rfl
  | keep c _ ih =>
      unfold significant at ih ⊢
      rw [List.filter_cons, List.filter_cons, ih]
  | ignored isIgnored _ ih =>
      rw [significant, List.filter_cons_of_neg, ← significant, ih]
      rcases isIgnored with rfl | isSpace
      · decide
      · simp [isSpace]

theorem Strewn.ofShorthand_eq {text strewn : String}
    (isStrewn : Strewn text.toList strewn.toList) : ofShorthand strewn = ofShorthand text := by
  rw [ofShorthand, ofShorthand, isStrewn.significant_eq]

/-- Parameters that can be spelled come back from their shorthand, in whichever order it has
them. What is strewn over a shorthand changes nothing, and no shorthand says anything that
cannot be spelled. -/
theorem ofShorthand_round_trip :
    (∀ params : Params, params.Spellable → ∀ pairs, pairs.Perm params.entries →
      ofShorthand (shorthand pairs) = params) ∧
    (∀ text strewn : String, Strewn text.toList strewn.toList →
      ofShorthand strewn = ofShorthand text) ∧
    ∀ text, (ofShorthand text).Spellable := by
  refine ⟨?_, fun text strewn isStrewn => isStrewn.ofShorthand_eq, spellable_ofShorthand⟩
  intro params spellable pairs perm
  have each : ∀ pair ∈ pairs, SpellablePair pair :=
    fun pair member => spellable pair (perm.mem_iff.mp member)
  rw [ofShorthand_eq_ofPairs, pairsOf_shorthand each, ofPairs_of_perm perm]

/-- An empty key with colons in its value, and a key that is given nothing. -/
def oddParams : Params := ofPairs [("", "a:b"), ("k", "")]

theorem ofShorthand_round_trip_odd :
    oddParams.Spellable ∧ ofShorthand "k:;:a:b" = oddParams ∧
      ofShorthand "k\t:;\":a:b" = oddParams := by
  obtain ⟨reads, strew, spells⟩ := ofShorthand_round_trip
  have spellable : oddParams.Spellable := by decide +kernel
  have turned : [("k", ""), ("", "a:b")].Perm oddParams.entries :=
    .swap ("", "a:b") ("k", "") []
  have isText : shorthand [("k", ""), ("", "a:b")] = "k:;:a:b" := by decide +kernel
  have read : ofShorthand "k:;:a:b" = oddParams := by
    rw [← isText]
    exact reads oddParams spellable _ turned
  have isStrewn : Strewn "k:;:a:b".toList "k\t:;\":a:b".toList :=
    .keep 'k' (.ignored (.inr rfl) (.keep ':' (.keep ';' (.ignored (.inl rfl)
      (.keep ':' (.keep 'a' (.keep ':' (.keep 'b' .done))))))))
  exact ⟨spellable, read, (strew _ _ isStrewn).trans read⟩

end Params

end ThemedSvg
