import TgCli.Lib.Bytes
import Mathlib.Logic.Function.Basic

/-!
# A directory over inodes

Enough of a POSIX file system to speak about atomic replacement by `rename`: paths name inodes,
inodes have contents, and an open file is an inode, whatever the paths do meanwhile.  Inodes are
never reused, and no two paths name one inode (there are no hard links); both are fields of the
structure, so that a state in which they fail cannot be built.

For crashes each inode has a flag that says whether its contents are on the disk.  `Survives` is
what a crash leaves: the contents of the synced inodes.
-/

namespace TgCli.Lib

open Function

/-- A file system with paths in `P`. -/
structure InodeFs (P : Type) where
  dir : P → Option ℕ
  data : ℕ → Bytes
  synced : ℕ → Bool
  /-- The next inode to be handed out. -/
  next : ℕ
  dir_lt : ∀ p i, dir p = some i → i < next
  dir_inj : ∀ p q i, dir p = some i → dir q = some i → p = q

namespace InodeFs

variable {P : Type}

def read (fs : InodeFs P) (p : P) : Option Bytes :=
  (fs.dir p).map fs.data

def put (fs : InodeFs P) (i : ℕ) (b : Bytes) : InodeFs P :=
  { fs with data := update fs.data i b, synced := update fs.synced i false }

/-- One `write` at the start of an open file; what the file has beyond stays. -/
def write (fs : InodeFs P) (i : ℕ) (b : Bytes) : InodeFs P :=
  fs.put i (b ++ (fs.data i).drop b.length)

/-- `fsync`. -/
def sync (fs : InodeFs P) (i : ℕ) : InodeFs P :=
  { fs with synced := update fs.synced i true }

section Contents

variable (fs : InodeFs P) (i : ℕ) (b : Bytes)

@[simp] theorem dir_write : (fs.write i b).dir = fs.dir := rfl

@[simp] theorem data_sync : (fs.sync i).data = fs.data := rfl

theorem data_write_self : (fs.write i b).data i = b ++ (fs.data i).drop b.length :=
  update_self i _ fs.data

theorem data_write_of_ne {j : ℕ} (h : j ≠ i) : (fs.write i b).data j = fs.data j :=
  update_of_ne h _ fs.data

theorem synced_write_of_ne {j : ℕ} (h : j ≠ i) : (fs.write i b).synced j = fs.synced j :=
  update_of_ne h _ fs.synced

theorem synced_sync_self : (fs.sync i).synced i = true :=
  update_self i _ fs.synced

theorem synced_sync_of_ne {j : ℕ} (h : j ≠ i) : (fs.sync i).synced j = fs.synced j :=
  update_of_ne h _ fs.synced

end Contents

theorem ne_of_dir (fs : InodeFs P) {p q : P} {i j : ℕ} (hpq : p ≠ q) (hp : fs.dir p = some i)
    (hq : fs.dir q = some j) : i ≠ j := by
  rintro rfl
  exact hpq (fs.dir_inj p q i hp hq)

/-! ## Crashes -/

/-- `fs'` is what a crash leaves of `fs`, when the directory is the one given: the contents of the
synced inodes survive, the rest is arbitrary. -/
structure Survives (dir : P → Option ℕ) (fs fs' : InodeFs P) : Prop where
  dir_eq : fs'.dir = dir
  data_eq : ∀ i, fs.synced i = true → fs'.data i = fs.data i

theorem survives_put {fs : InodeFs P} {i : ℕ} (h : fs.synced i = false) (b : Bytes) :
    Survives fs.dir fs (fs.put i b) where
  dir_eq := rfl
  data_eq j hj := by
    have hne : j ≠ i := by
      rintro rfl
      rw [h] at hj
      exact absurd hj Bool.false_ne_true
    exact update_of_ne hne b fs.data

/-! ## Directory operations -/

variable [DecidableEq P]

def fresh (fs : InodeFs P) (p : P) : InodeFs P where
  dir := update fs.dir p (some fs.next)
  data := update fs.data fs.next []
  synced := update fs.synced fs.next true
  next := fs.next + 1
  dir_lt q i h := by
    by_cases hq : q = p
    · rw [hq, update_self, Option.some_inj] at h
      omega
    · rw [update_of_ne hq] at h
      exact Nat.lt_succ_of_lt (fs.dir_lt q i h)
  dir_inj q r i hq hr := by
    by_cases hqp : q = p <;> by_cases hrp : r = p
    · rw [hqp, hrp]
    · rw [hqp, update_self, Option.some_inj] at hq
      rw [update_of_ne hrp] at hr
      exact absurd (fs.dir_lt r i hr) (by omega)
    · rw [hrp, update_self, Option.some_inj] at hr
      rw [update_of_ne hqp] at hq
      exact absurd (fs.dir_lt q i hq) (by omega)
    · rw [update_of_ne hqp] at hq
      rw [update_of_ne hrp] at hr
      exact fs.dir_inj q r i hq hr

/-- `open` with `O_CREAT`: the inode, and the file system in which it exists. -/
def openCreat (fs : InodeFs P) (p : P) : ℕ × InodeFs P :=
  match fs.dir p with
  | some i => (i, fs)
  | none => (fs.next, fs.fresh p)

/-- `open` with `O_CREAT | O_TRUNC`. -/
def openTrunc (fs : InodeFs P) (p : P) : ℕ × InodeFs P :=
  match fs.dir p with
  | some i => (i, fs.put i [])
  | none => (fs.next, fs.fresh p)

def unlink (fs : InodeFs P) (p : P) : InodeFs P where
  dir := update fs.dir p none
  data := fs.data
  synced := fs.synced
  next := fs.next
  dir_lt q i h := by
    by_cases hq : q = p
    · rw [hq, update_self] at h
      exact absurd h (by simp)
    · rw [update_of_ne hq] at h
      exact fs.dir_lt q i h
  dir_inj q r i hq hr := by
    by_cases hqp : q = p
    · rw [hqp, update_self] at hq
      exact absurd hq (by simp)
    · by_cases hrp : r = p
      · rw [hrp, update_self] at hr
        exact absurd hr (by simp)
      · rw [update_of_ne hqp] at hq
        rw [update_of_ne hrp] at hr
        exact fs.dir_inj q r i hq hr

/-- The directory after `p` has been renamed to `q`. -/
def move (fs : InodeFs P) (p q : P) : InodeFs P where
  dir r := if r = q then fs.dir p else if r = p then none else fs.dir r
  data := fs.data
  synced := fs.synced
  next := fs.next
  dir_lt r i h := by
    split_ifs at h
    · exact fs.dir_lt p i h
    · exact fs.dir_lt r i h
  dir_inj r s i hr hs := by
    split_ifs at hr hs with hrq hsq hsp hrp hsq hsp
    · rw [hrq, hsq]
    · exact absurd (fs.dir_inj s p i hs hr) hsp
    · exact absurd (fs.dir_inj r p i hr hs) hrp
    · exact fs.dir_inj r s i hr hs

/-- `rename`: atomically, and an error if there is nothing to rename. -/
def rename (fs : InodeFs P) (p q : P) : Option (InodeFs P) :=
  if (fs.dir p).isSome then some (fs.move p q) else none

def empty : InodeFs P where
  dir _ := none
  data _ := []
  synced _ := true
  next := 0
  dir_lt _ _ h := absurd h (by simp)
  dir_inj _ _ _ h := absurd h (by simp)

def single (p : P) (b : Bytes) : InodeFs P :=
  ((empty.fresh p).put 0 b).sync 0

theorem dir_single (p : P) (b : Bytes) : (single p b).dir p = some 0 := by
  show update (empty : InodeFs P).dir p (some 0) p = some 0
  rw [update_self]

theorem read_single (p : P) (b : Bytes) : (single p b).read p = some b := by
  rw [read, dir_single, Option.map_some]
  show some (update (empty.fresh p).data 0 b 0) = some b
  rw [update_self]

/-! ## What the directory operations leave -/

section Frame

variable (fs : InodeFs P) (p q : P)

@[simp] theorem data_unlink : (fs.unlink p).data = fs.data := rfl

@[simp] theorem data_move : (fs.move p q).data = fs.data := rfl

theorem dir_unlink_self : (fs.unlink p).dir p = none :=
  update_self p _ fs.dir

theorem dir_unlink_of_ne {p q : P} (h : q ≠ p) : (fs.unlink p).dir q = fs.dir q :=
  update_of_ne h _ fs.dir

theorem dir_move_target : (fs.move p q).dir q = fs.dir p :=
  if_pos rfl

end Frame

/-- **Opening with `O_CREAT`**: the path names the inode returned, its contents are what they were
(empty if it is new), and the rest of the file system is untouched. -/
theorem openCreat_spec (fs : InodeFs P) (p : P) :
    (fs.openCreat p).2.dir p = some (fs.openCreat p).1 ∧
      (∀ q, q ≠ p → (fs.openCreat p).2.dir q = fs.dir q) ∧
      (fs.openCreat p).2.data (fs.openCreat p).1 = (fs.read p).getD [] ∧
      (∀ j, j < fs.next → (fs.openCreat p).2.data j = fs.data j) ∧
      fs.next ≤ (fs.openCreat p).2.next := by
  rw [openCreat, read]
  rcases h : fs.dir p with _ | i
  · refine ⟨update_self .., fun q hq => update_of_ne hq ..,
      update_self .., fun j hj => update_of_ne (by omega) .., Nat.le_succ _⟩
  · exact ⟨h, fun q _ => rfl, rfl, fun j _ => rfl, le_refl _⟩

/-- **Opening with `O_TRUNC`**: the path names the inode returned, which is empty and which no other
path names; every other inode keeps its contents. -/
theorem openTrunc_spec (fs : InodeFs P) (p : P) :
    (fs.openTrunc p).2.dir p = some (fs.openTrunc p).1 ∧
      (∀ q, q ≠ p → (fs.openTrunc p).2.dir q = fs.dir q) ∧
      (fs.openTrunc p).2.data (fs.openTrunc p).1 = [] ∧
      (∀ j, j ≠ (fs.openTrunc p).1 → (fs.openTrunc p).2.data j = fs.data j) ∧
      fs.next ≤ (fs.openTrunc p).2.next := by
  rw [openTrunc]
  rcases h : fs.dir p with _ | i
  · exact ⟨update_self .., fun q hq => update_of_ne hq ..,
      update_self .., fun j hj => update_of_ne hj .., Nat.le_succ _⟩
  · exact ⟨h, fun q _ => rfl, update_self .., fun j hj => update_of_ne hj ..,
      le_refl _⟩

/-! ## Replacing a file -/

theorem read_write_openTrunc (fs : InodeFs P) (p : P) (b : Bytes) :
    ((fs.openTrunc p).2.write (fs.openTrunc p).1 b).read p = some b := by
  obtain ⟨hdir, -, hempty, -⟩ := fs.openTrunc_spec p
  rw [read, dir_write, hdir, Option.map_some, data_write_self, hempty, List.drop_nil,
    List.append_nil]

theorem rename_of_dir {fs : InodeFs P} {p : P} {i : ℕ} (h : fs.dir p = some i) (q : P) :
    fs.rename p q = some (fs.move p q) := by
  rw [rename, h]
  rfl

theorem rename_write_openTrunc (fs : InodeFs P) (p q : P) (b : Bytes) :
    (((fs.openTrunc p).2.write (fs.openTrunc p).1 b).rename p q).isSome = true := by
  rw [rename, dir_write, (fs.openTrunc_spec p).1]
  rfl

theorem read_openTrunc_of_ne (fs : InodeFs P) {p q : P} (hq : q ≠ p) :
    (fs.openTrunc p).2.read q = fs.read q := by
  obtain ⟨hdir, hothers, -, hdata, -⟩ := fs.openTrunc_spec p
  rw [read, read, hothers q hq]
  rcases hj : fs.dir q with _ | j
  · rfl
  · have hne := (fs.openTrunc p).2.ne_of_dir hq ((hothers q hq).trans hj) hdir
    rw [Option.map_some, Option.map_some, hdata j hne]

theorem read_write_openTrunc_of_ne (fs : InodeFs P) {p q : P} (hq : q ≠ p) (b : Bytes) :
    ((fs.openTrunc p).2.write (fs.openTrunc p).1 b).read q = fs.read q := by
  rw [← fs.read_openTrunc_of_ne hq, read, read, dir_write]
  rcases hj : (fs.openTrunc p).2.dir q with _ | j
  · rfl
  · have hne := (fs.openTrunc p).2.ne_of_dir hq hj (fs.openTrunc_spec p).1
    rw [Option.map_some, Option.map_some, data_write_of_ne _ _ _ hne]

/-- **Replacement**: a file that is renamed is read under its new name. -/
theorem read_of_rename {fs fs' : InodeFs P} {p q : P} (h : fs.rename p q = some fs') :
    fs'.read q = fs.read p := by
  rw [rename] at h
  split_ifs at h
  rw [← Option.some.inj h, read, dir_move_target, data_move, read]

theorem synced_openTrunc_of_ne (fs : InodeFs P) (p : P) {j : ℕ} (h : j ≠ (fs.openTrunc p).1) :
    (fs.openTrunc p).2.synced j = fs.synced j := by
  rw [openTrunc] at h ⊢
  rcases hp : fs.dir p with _ | i <;> rw [hp] at h <;> exact update_of_ne h ..

theorem synced_openCreat (fs : InodeFs P) (p : P)
    (h : ∀ i, fs.dir p = some i → fs.synced i = true) :
    (fs.openCreat p).2.synced (fs.openCreat p).1 = true := by
  rw [openCreat]
  rcases hp : fs.dir p with _ | i
  · exact update_self ..
  · exact h i hp

end InodeFs

end TgCli.Lib
