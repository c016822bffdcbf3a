import CardDuel.Statistics.Ledger
import Mathlib.Data.List.Sort
import Mathlib.Tactic.Common

/-!
# Ledgers entry by entry

Putting a value under a name changes what stands under that name and nothing else.  A ledger
is what its entries give when they are put into the empty ledger one after another, and it is
known by the values under all names (`ext_get?`).
-/

namespace CardDuel.Ledger

variable {α : Type}

/-- After a value is put under a name, it is found there, and all else as before. -/
theorem get?_put (ledger : Ledger α) (name name' : String) (value : α) :
  (ledger.put name value).get? name' = if name' = name then some value else ledger.get? name'
  := by
  obtain ⟨entries, sorted⟩ := ledger
  simp only [get?, put]
  clear sorted
  induction entries with
  | nil =>
    by_cases same : name' = name
    · simp [putInto, same]
    · simp [putInto, same, Ne.symm same]
  | cons entry rest ih =>
    rw [putInto]
    split
    · by_cases same : name' = name
      · simp [same]
      · simp [same, Ne.symm same]
    · split
      · rename_i here
        by_cases same : name' = name
        · simp [same]
        · simp [same, Ne.symm same, ← here]
      · rename_i apart
        by_cases same : name' = entry.1
        · simp [same, Ne.symm apart]
        · simpa [Ne.symm same] using ih

theorem contains_put (ledger : Ledger α) (name name' : String) (value : α) :
  (ledger.put name value).contains name' = (name' == name || ledger.contains name')
  := by
  rw [contains, get?_put]
  split <;> simp_all [contains]

/-- The names of a ledger after a value is put into it. -/
theorem mem_names_put {ledger : Ledger α} {name name' : String} {value : α}
    (h : name' ∈ (ledger.put name value).names) :
  name' = name ∨ name' ∈ ledger.names
  := by
  obtain ⟨entry, mem, rfl⟩ := List.mem_map.mp h
  rcases mem_putInto mem with rfl | mem
  · left
    rfl
  · right
    apply List.mem_map_of_mem mem

/-- A value under a name behind all others comes last. -/
theorem putInto_of_forall_lt {name : String} {value : α} {entries : List (String × α)}
    (last : ∀ entry ∈ entries, entry.1 < name) :
  putInto name value entries = entries ++ [(name, value)]
  := by
  induction entries with
  | nil => rfl
  | cons entry rest ih =>
    obtain ⟨first, others⟩ := List.forall_mem_cons.mp last
    have notBefore : ¬ name < entry.1 := by
      intro before
      exact String.lt_irrefl _ (String.lt_trans first before)
    have apart : name ≠ entry.1 := by
      rintro rfl
      exact String.lt_irrefl _ first
    rw [putInto, if_neg notBefore, if_neg apart, ih others]
    rfl

/-- Putting entries in alphabetical order behind those of a ledger appends them. -/
theorem entries_foldl_put (entries : List (String × α)) {ledger : Ledger α}
    (sorted : (ledger.entries ++ entries).Pairwise fun a b => a.1 < b.1) :
  (entries.foldl (fun ledger entry => ledger.put entry.1 entry.2) ledger).entries
    = ledger.entries ++ entries
  := by
  induction entries generalizing ledger with
  | nil => simp
  | cons entry rest ih =>
    have put : (ledger.put entry.1 entry.2).entries = ledger.entries ++ [entry] := by
      apply putInto_of_forall_lt
      intro before mem
      apply (List.pairwise_append.mp sorted).2.2 before mem entry List.mem_cons_self
    rw [List.foldl_cons, ih, put, List.append_assoc]
    · rfl
    · rw [put, List.append_assoc]
      apply sorted

/-- A ledger is rebuilt from its entries. -/
theorem foldl_put_entries (ledger : Ledger α) :
  ledger.entries.foldl (fun ledger entry => ledger.put entry.1 entry.2) empty = ledger
  := by
  have entries := entries_foldl_put ledger.entries
    (show (empty.entries ++ _).Pairwise _ from ledger.sorted)
  obtain ⟨listed, sorted⟩ := ledger
  generalize listed.foldl _ _ = rebuilt at entries ⊢
  obtain ⟨entries', sorted'⟩ := rebuilt
  obtain rfl : entries' = listed := entries
  rfl

/-! ### Equality of ledgers -/

theorem mem_entries_iff {ledger : Ledger α} {name : String} {value : α} :
  (name, value) ∈ ledger.entries ↔ ledger.get? name = some value
  := by
  obtain ⟨entries, sorted⟩ := ledger
  simp only [get?]
  induction entries with
  | nil => simp
  | cons entry rest ih =>
    obtain ⟨first, others⟩ := List.pairwise_cons.mp sorted
    by_cases same : entry.1 = name
    · have later : (name, value) ∉ rest := by
        intro mem
        exact String.lt_irrefl _ (same ▸ first _ mem)
      rw [List.find?_cons_of_pos (by simpa using same), List.mem_cons, or_iff_left later,
        Option.map_some, Option.some.injEq, Prod.ext_iff]
      simp [same, eq_comm]
    · have apart : (name, value) ≠ entry := by
        rintro rfl
        exact same rfl
      rw [List.find?_cons_of_neg (by simpa using same), List.mem_cons, or_iff_right apart]
      apply ih others

/-- Ledgers with the same values under the same names are the same. -/
theorem ext_get? {a b : Ledger α} (h : ∀ name, a.get? name = b.get? name) :
  a = b
  := by
  have mem : ∀ entry, entry ∈ a.entries ↔ entry ∈ b.entries := by
    intro entry
    rw [mem_entries_iff, h, mem_entries_iff]
  obtain ⟨as, sorted⟩ := a
  obtain ⟨bs, sorted'⟩ := b
  congr
  have asymmetric : Std.Asymm fun a b : String × α => a.1 < b.1 :=
    ⟨fun _ _ before after => String.lt_irrefl _ (String.lt_trans before after)⟩
  apply sorted.eq_of_mem_iff sorted' mem

/-- Ledgers that only list names are the same if they list the same names. -/
theorem ext_contains {a b : Ledger Unit} (h : ∀ name, a.contains name = b.contains name) :
  a = b
  := by
  apply ext_get?
  intro name
  have alike := h name
  rw [contains, contains] at alike
  cases here : a.get? name with
  | none =>
    rw [here, Option.isSome_none, eq_comm, Option.isSome_eq_false_iff, Option.isNone_iff_eq_none]
      at alike
    rw [alike]
  | some value =>
    rw [here, Option.isSome_some, eq_comm, Option.isSome_iff_exists] at alike
    obtain ⟨value', there⟩ := alike
    rw [there]

end CardDuel.Ledger
