/-!
Lists of entries under keys. An entry is looked up by its key, and the first one of a key counts.
-/
namespace ActorScript

variable {κ α : Type}

def without [DecidableEq κ] (key : κ) (entries : List (κ × α)) : List (κ × α) :=
  entries.filter (·.1 ≠ key)

theorem lookup_cons_of_ne [BEq κ] [LawfulBEq κ] {key other : κ} (h : other ≠ key) (value : α)
    (entries : List (κ × α)) :
    ((key, value) :: entries).lookup other = entries.lookup other := by
  have : (other == key) = false := beq_eq_false_iff_ne.2 h
  rw [List.lookup_cons, this]

theorem lookup_without [BEq κ] [LawfulBEq κ] [DecidableEq κ] (key other : κ)
    (entries : List (κ × α)) :
    (without key entries).lookup other = if other = key then none else entries.lookup other := by
  unfold without
  induction entries with
  | nil => simp
  | cons entry rest ih =>
    obtain ⟨k, value⟩ := entry
    by_cases gone : k = key
    · subst gone
      rw [List.filter_cons_of_neg (by simp), ih]
      split
      · rfl
      · rename_i different
        rw [lookup_cons_of_ne different]
    · rw [List.filter_cons_of_pos (by simpa using gone)]
      by_cases here : other = k
      · subst here
        rw [List.lookup_cons_self, List.lookup_cons_self, if_neg gone]
      · rw [lookup_cons_of_ne here, lookup_cons_of_ne here, ih]

end ActorScript
