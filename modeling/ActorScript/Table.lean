import ActorScript.Entries

/-!
A table gives values to names. Its entries stand in ascending order of their names, which is the
order of their code points, so a table lists its entries in one way only and two tables with the
same entries are equal.
-/
namespace ActorScript

/-- Puts the value of `name` at its place in an ascending list, over any value it had. -/
def insertEntry {α : Type} (name : String) (value : α) : List (String × α) → List (String × α)
  | [] => [(name, value)]
  | entry :: rest =>
    if name < entry.1 then (name, value) :: entry :: rest
    else if name = entry.1 then (name, value) :: rest
    else entry :: insertEntry name value rest

theorem mem_insertEntry {α : Type} {name : String} {value : α} {entries : List (String × α)}
    {e : String × α} (h : e ∈ insertEntry name value entries) :
    e = (name, value) ∨ e ∈ entries := by
  induction entries with
  | nil => simpa [insertEntry] using h
  | cons entry rest ih =>
    rw [insertEntry] at h
    split at h
    · simpa using h
    · split at h
      · rcases List.mem_cons.1 h with h | h
        · exact .inl h
        · exact .inr (List.mem_cons_of_mem _ h)
      · rcases List.mem_cons.1 h with h | h
        · exact .inr (h ▸ List.mem_cons_self)
        · exact (ih h).imp id (List.mem_cons_of_mem _)

theorem pairwise_insertEntry {α : Type} (name : String) (value : α) {entries : List (String × α)}
    (h : entries.Pairwise (fun a b => a.1 < b.1)) :
    (insertEntry name value entries).Pairwise (fun a b => a.1 < b.1) := by
  induction entries with
  | nil => simp [insertEntry]
  | cons entry rest ih =>
    obtain ⟨first, others⟩ := List.pairwise_cons.1 h
    rw [insertEntry]
    split
    · rename_i before
      refine List.pairwise_cons.2 ⟨fun e he => ?_, h⟩
      rcases List.mem_cons.1 he with rfl | he
      · exact before
      · exact String.lt_trans before (first e he)
    · split
      · rename_i same
        exact List.pairwise_cons.2 ⟨fun e he => same ▸ first e he, others⟩
      · rename_i notBefore different
        have after : entry.1 < name := by
          rcases String.le_total entry.1 name with le | le
          · exact String.not_le.1 fun ge => different (String.le_antisymm ge le)
          · exact absurd (String.not_le.1 fun ge => different (String.le_antisymm le ge)) notBefore
        refine List.pairwise_cons.2 ⟨fun e he => ?_, ih others⟩
        rcases mem_insertEntry he with rfl | he
        · exact after
        · exact first e he

/-- Values by name, in ascending order of the names. -/
structure Table (α : Type) where
  entries : List (String × α)
  ascending : entries.Pairwise (fun a b => a.1 < b.1)

namespace Table

variable {α β : Type}

def empty : Table α := ⟨[], .nil⟩

instance : Inhabited (Table α) := ⟨empty⟩

instance [DecidableEq α] : DecidableEq (Table α) := fun s t =>
  decidable_of_iff (s.entries = t.entries)
    ⟨fun h => by cases s; cases t; cases h; rfl, fun h => h ▸ rfl⟩

def get? (t : Table α) (name : String) : Option α := t.entries.lookup name

def insert (t : Table α) (name : String) (value : α) : Table α :=
  ⟨insertEntry name value t.entries, pairwise_insertEntry name value t.ascending⟩

def erase (t : Table α) (name : String) : Table α :=
  ⟨without name t.entries, t.ascending.filter _⟩

@[simp] theorem get?_empty (name : String) : (empty : Table α).get? name = none := rfl

theorem get?_insert (t : Table α) (name other : String) (value : α) :
    (t.insert name value).get? other = if other = name then some value else t.get? other := by
  obtain ⟨entries, ascending⟩ := t
  simp only [get?, insert]
  clear ascending
  induction entries with
  | nil =>
    by_cases same : other = name
    · rw [if_pos same, same, insertEntry, List.lookup_cons_self]
    · rw [if_neg same, insertEntry, lookup_cons_of_ne same]
  | cons entry rest ih =>
    rw [insertEntry]
    split
    · by_cases same : other = name
      · rw [if_pos same, same, List.lookup_cons_self]
      · rw [if_neg same, lookup_cons_of_ne same]
    · split
      · rename_i here
        by_cases same : other = name
        · rw [if_pos same, same, List.lookup_cons_self]
        · rw [if_neg same, lookup_cons_of_ne same, lookup_cons_of_ne (here ▸ same)]
      · rename_i elsewhere
        by_cases first : other = entry.1
        · rw [first, if_neg (Ne.symm elsewhere), List.lookup_cons_self, List.lookup_cons_self]
        · rw [lookup_cons_of_ne first, lookup_cons_of_ne first, ih]

theorem get?_erase (t : Table α) (name other : String) :
    (t.erase name).get? other = if other = name then none else t.get? other :=
  lookup_without name other t.entries

def map (f : α → β) (t : Table α) : Table β :=
  ⟨t.entries.map fun e => (e.1, f e.2), List.pairwise_map.2 t.ascending⟩

/-- A table of the given entries; of two entries for one name the later counts. -/
def ofList (entries : List (String × α)) : Table α :=
  entries.foldl (fun t e => t.insert e.1 e.2) empty

def names (t : Table α) : List String := t.entries.map (·.1)

def values (t : Table α) : List α := t.entries.map (·.2)

def size (t : Table α) : Nat := t.entries.length

def isEmpty (t : Table α) : Bool := t.entries.isEmpty

@[ext] theorem ext {s t : Table α} (h : s.entries = t.entries) : s = t := by
  cases s; cases t; cases h; rfl

end Table
end ActorScript
