/-!
# Ledgers

A `Ledger α` keeps one value for each of finitely many names.  The names stand in
alphabetical order, each once, so two ledgers with the same values are the same ledger.
`put` writes a value and `get?` reads it back.
-/

namespace CardDuel

/-- Values under names, in alphabetical order of the names. -/
structure Ledger (α : Type) where
  entries : List (String × α)
  sorted : entries.Pairwise fun a b => a.1 < b.1
deriving DecidableEq

namespace Ledger

variable {α : Type}

/-- The ledger without names. -/
def empty : Ledger α := ⟨[], .nil⟩

instance : Inhabited (Ledger α) := ⟨empty⟩

/-- The names in alphabetical order. -/
def names (ledger : Ledger α) : List String :=
  ledger.entries.map (·.1)

/-- The value under a name. -/
def get? (ledger : Ledger α) (name : String) : Option α :=
  (ledger.entries.find? fun entry => entry.1 == name).map (·.2)

/-- Whether a name has a value. -/
def contains (ledger : Ledger α) (name : String) : Bool :=
  (ledger.get? name).isSome

/-- Put a value at its place in an alphabetical list. -/
def putInto (name : String) (value : α) : List (String × α) → List (String × α)
  | [] => [(name, value)]
  | entry :: rest =>
    if name < entry.1 then (name, value) :: entry :: rest
    else if name = entry.1 then (name, value) :: rest
    else entry :: putInto name value rest

/-- What is in the list after a value is put into it. -/
theorem mem_putInto {name : String} {value : α} {entries : List (String × α)}
    {entry : String × α} (h : entry ∈ putInto name value entries) :
  entry = (name, value) ∨ entry ∈ entries
  := by
  induction entries with
  | nil => simpa [putInto] using h
  | cons first rest ih =>
    unfold putInto at h
    split at h
    · simpa using h
    · split at h
      · rcases List.mem_cons.mp h with h | h
        · exact .inl h
        · exact .inr (List.mem_cons_of_mem _ h)
      · rcases List.mem_cons.mp h with h | h
        · exact .inr (h ▸ List.mem_cons_self)
        · exact (ih h).imp id (List.mem_cons_of_mem _)

theorem lt_of_not_lt_of_ne {a b : String} (h : ¬a < b) (h' : a ≠ b) :
  b < a
  := by
  apply String.not_le.mp
  intro le
  exact h' (String.le_antisymm le (String.not_lt.mp h))

/-- Putting a value at its place keeps the order. -/
theorem sorted_putInto (name : String) (value : α) {entries : List (String × α)}
    (h : entries.Pairwise fun a b => a.1 < b.1) :
  (putInto name value entries).Pairwise fun a b => a.1 < b.1
  := by
  induction entries with
  | nil => exact List.pairwise_singleton _ _
  | cons entry rest ih =>
    obtain ⟨first, sorted⟩ := List.pairwise_cons.mp h
    unfold putInto
    split
    · rename_i before
      refine List.pairwise_cons.mpr ⟨?_, h⟩
      intro other hother
      rcases List.mem_cons.mp hother with rfl | hother
      · exact before
      · exact String.lt_trans before (first other hother)
    · split
      · rename_i same
        exact List.pairwise_cons.mpr ⟨fun other hother => same ▸ first other hother, sorted⟩
      · rename_i notBefore different
        refine List.pairwise_cons.mpr ⟨?_, ih sorted⟩
        intro other hother
        rcases mem_putInto hother with rfl | hother
        · exact lt_of_not_lt_of_ne notBefore different
        · exact first other hother

/-- The ledger with a value under a name; a former value is replaced. -/
def put (ledger : Ledger α) (name : String) (value : α) : Ledger α :=
  ⟨putInto name value ledger.entries, sorted_putInto name value ledger.sorted⟩

end Ledger

end CardDuel
