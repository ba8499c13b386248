import TgCli.Lib.Bytes

/-!
# Paths in a directory

A path names an entry of a directory when it is the path of the directory, a slash, and a name that
has no slash in it and is not one of the two dot entries.  This is about the texts: what a name with
a slash or a dot entry resolves to depends on the file system, and an attacker chooses it.
-/

namespace TgCli.Lib

def IsEntryName (name : Bytes) : Prop :=
  name ≠ [] ∧ 0x2f ∉ name ∧ name ≠ [0x2e] ∧ name ≠ [0x2e, 0x2e]
  deriving Decidable

def IsChild (dir path : Bytes) : Prop :=
  ∃ name, path = dir ++ 0x2f :: name ∧ IsEntryName name

theorem isChild_join_iff (dir name : Bytes) :
    IsChild dir (dir ++ 0x2f :: name) ↔ IsEntryName name := by
  constructor
  · rintro ⟨name', h, hname⟩
    obtain rfl : name = name' := (List.cons.inj (List.append_cancel_left h)).2
    exact hname
  · exact fun h => ⟨name, rfl, h⟩

/-- When the path of the directory was cut short, the rest of it has to come with the name. -/
theorem isChild_join_cut_iff (dir : Bytes) {rest : Bytes} (hrest : rest ≠ []) (name : Bytes) :
    IsChild (dir ++ rest) (dir ++ 0x2f :: name) ↔
      ∃ rest' name', rest = 0x2f :: rest' ∧ name = rest' ++ 0x2f :: name' ∧ IsEntryName name' := by
  constructor
  · rintro ⟨name', h, hname⟩
    rw [List.append_assoc] at h
    have htail := List.append_cancel_left h
    cases rest with
    | nil => exact absurd rfl hrest
    | cons c rest' =>
      obtain ⟨rfl, hjoin⟩ := List.cons.inj htail
      exact ⟨rest', name', rfl, hjoin, hname⟩
  · rintro ⟨rest', name', rfl, rfl, hname⟩
    exact ⟨name', by rw [List.append_assoc]; rfl, hname⟩

end TgCli.Lib
