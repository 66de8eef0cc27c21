import ActorScript.Table
import Mathlib.Algebra.BigOperators.Group.List.Basic
import Mathlib.Algebra.GroupWithZero.Nat

/-!
A table of machine words has a total, which is a natural number and need not fit in a word. Its
names ascend, so that none has two entries: what is under a name and what is under the others make
up the whole, and giving the name another number changes no more than that.
-/
namespace ActorScript

section Entries

variable {κ α : Type} {name : String} {value : α} {entries : List (String × α)}

theorem without_eq_self [DecidableEq κ] {key : κ} {entries : List (κ × α)}
    (fresh : ∀ e ∈ entries, e.1 ≠ key) : without key entries = entries := by
  unfold without
  rw [List.filter_eq_self]
  intro e mem
  exact decide_eq_true (fresh e mem)

theorem without_of_above (above : ∀ e ∈ entries, name < e.1) : without name entries = entries := by
  apply without_eq_self
  intro e mem same
  have later := above e mem
  rw [same] at later
  exact String.lt_irrefl name later

theorem without_cons_self (above : ∀ e ∈ entries, name < e.1) :
    without name ((name, value) :: entries) = entries := by
  have rest := without_of_above above
  unfold without at *
  rw [List.filter_cons_of_neg (by simp), rest]

theorem without_cons_of_ne [DecidableEq κ] {key : κ} {entry : κ × α} (different : entry.1 ≠ key)
    (entries : List (κ × α)) : without key (entry :: entries) = entry :: without key entries :=
  List.filter_cons_of_pos (decide_eq_true different)

theorem perm_insertEntry (ascending : entries.Pairwise fun a b => a.1 < b.1) :
    (insertEntry name value entries).Perm ((name, value) :: without name entries) := by
  induction entries with
  | nil => exact .refl _
  | cons entry rest ih =>
    obtain ⟨above, others⟩ := List.pairwise_cons.1 ascending
    rw [insertEntry]
    by_cases before : name < entry.1
    · rw [if_pos before, without_of_above]
      intro e mem
      rcases List.mem_cons.1 mem with rfl | mem
      · exact before
      · exact String.lt_trans before (above e mem)
    · rw [if_neg before]
      by_cases same : name = entry.1
      · subst same
        rw [if_pos rfl, without_cons_self above]
      · rw [if_neg same, without_cons_of_ne (Ne.symm same)]
        exact ((ih others).cons entry).trans (.swap ..)

theorem lookup_of_mem (ascending : entries.Pairwise fun a b => a.1 < b.1)
    (mem : (name, value) ∈ entries) : entries.lookup name = some value := by
  induction entries with
  | nil => simp at mem
  | cons entry rest ih =>
    obtain ⟨before, others⟩ := List.pairwise_cons.1 ascending
    rcases List.mem_cons.1 mem with rfl | mem
    · exact List.lookup_cons_self
    · have different : name ≠ entry.1 := by
        intro same
        have := before _ mem
        rw [same] at this
        exact String.lt_irrefl _ this
      rw [lookup_cons_of_ne different, ih others mem]

theorem sum_eq_add_without {entries : List (String × UInt64)}
    (ascending : entries.Pairwise fun a b => a.1 < b.1) (name : String) :
    (entries.map (·.2.toNat)).sum =
      ((entries.lookup name).getD 0).toNat + ((without name entries).map (·.2.toNat)).sum := by
  induction entries with
  | nil => rfl
  | cons entry rest ih =>
    obtain ⟨above, others⟩ := List.pairwise_cons.1 ascending
    by_cases same : name = entry.1
    · subst same
      rw [without_cons_self above, List.lookup_cons_self, List.map_cons, List.sum_cons,
        Option.getD_some]
    · have rest_sum := ih others
      rw [lookup_cons_of_ne same, without_cons_of_ne (Ne.symm same), List.map_cons, List.map_cons,
        List.sum_cons, List.sum_cons]
      omega

end Entries

namespace Table

def total (t : Table UInt64) : Nat := (t.entries.map (·.2.toNat)).sum

theorem total_eq_add_erase (t : Table UInt64) (name : String) :
    t.total = ((t.get? name).getD 0).toNat + (t.erase name).total :=
  sum_eq_add_without t.ascending name

theorem total_insert (t : Table UInt64) (name : String) (n : UInt64) :
    (t.insert name n).total = n.toNat + (t.erase name).total := by
  have moved : ((t.insert name n).entries.map (·.2.toNat)).Perm
      (n.toNat :: (t.erase name).entries.map (·.2.toNat)) :=
    (perm_insertEntry t.ascending).map _
  exact moved.sum_eq

theorem sum_get?_names (t : Table UInt64) :
    (t.names.map fun name => ((t.get? name).getD 0).toNat).sum = t.total := by
  unfold names total
  rw [List.map_map]
  refine congrArg List.sum (List.map_congr_left ?_)
  intro e mem
  show ((t.entries.lookup e.1).getD 0).toNat = e.2.toNat
  rw [lookup_of_mem t.ascending mem, Option.getD_some]

end Table
end ActorScript
