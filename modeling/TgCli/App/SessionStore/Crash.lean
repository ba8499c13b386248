import TgCli.App.SessionStore.Refinement

/-!
# A save that is cut short

A save stops after any of its system calls, and the machine may go down with it.  Of the contents,
what was synced survives.  Of the directory, the state of some earlier moment of the call survives
(the changes before it reached the disk, those after it did not); that `rename` is one change is its
atomicity.  `fsync` is taken to have synced.

Whatever remains, the loads give the answers from before the call or those from after it, and a
later save proceeds from there (`upsert_crash_atomic`).  The reason is that until the rename
`session.bin` is the file that was locked, with its old contents --- or an empty file, if there was
none, and an empty file is read like an absent one.
-/

namespace TgCli.App

open Option Lib TgCli.Core

/-! ## Answers -/

/-- The two file systems give the same answers, now and after any further save. -/
structure SameStore (a b : Fs) : Prop where
  load : (sessionStoreLoad a).1 = (sessionStoreLoad b).1
  loadDc : ∀ d, (sessionStoreLoadDc d a).1 = (sessionStoreLoadDc d b).1
  save : ∀ req, (upsert req a).1 = (upsert req b).1
  load_save : ∀ req, (sessionStoreLoad (upsert req a).2).1 = (sessionStoreLoad (upsert req b).2).1
  loadDc_save : ∀ req d,
    (sessionStoreLoadDc d (upsert req a).2).1 = (sessionStoreLoadDc d (upsert req b).2).1

variable {a b x fs x' : Fs}

theorem stored_upsert (h : stored a = stored b) (req : UpsertReq) :
    (upsert req a).1 = (upsert req b).1 ∧ stored (upsert req a).2 = stored (upsert req b).2 := by
  rw [upsert_spec, upsert_spec, h]
  by_cases hkey : req.session.hasAuthKey = true
  · rw [if_pos hkey, if_pos hkey]
    rcases req.modify (stored b) with _ | st
    · exact ⟨rfl, by rw [stored_lockFs, stored_lockFs, h]⟩
    · exact ⟨rfl, by rw [stored_replacedFs, stored_replacedFs]⟩
  · rw [if_neg hkey, if_neg hkey]
    exact ⟨rfl, h⟩

theorem sameStore_of_stored (h : stored a = stored b) : SameStore a b where
  load := by rw [fst_sessionStoreLoad, fst_sessionStoreLoad, h]
  loadDc d := by rw [fst_sessionStoreLoadDc, fst_sessionStoreLoadDc, h]
  save req := (stored_upsert h req).1
  load_save req := by rw [fst_sessionStoreLoad, fst_sessionStoreLoad, (stored_upsert h req).2]
  loadDc_save req d := by
    rw [fst_sessionStoreLoadDc, fst_sessionStoreLoadDc, (stored_upsert h req).2]

/-! ## The file system during a save -/

section Steps

variable {req : UpsertReq} (fs : Fs)

/-- The file system after `n` system calls of a save that writes `st`. -/
def fsDuring (st : StoreFile) (n : ℕ) : Fs :=
  if n = 0 then fs
  else if n ≤ 4 then lockFs fs
  else if n = 5 then (tmpFs fs).2
  else if n = 6 then writtenFs fs st
  else if n ≤ 8 then syncedFs fs st
  else replacedFs fs st

theorem snd_upsertSteps_of_modify_some (hkey : req.session.hasAuthKey = true) {st : StoreFile}
    (hm : req.modify (stored fs) = some st) (n : ℕ) :
    (upsertSteps req fs n).2 = fsDuring fs st n := by
  obtain ⟨h1, h2, h3, -⟩ := upsertSteps_read fs hkey
  obtain ⟨h4, h5, h6, h7, h8, h9, h10⟩ := upsertSteps_of_modify_some fs hkey hm
  match n with
  | 0 => rw [upsertSteps_zero fs hkey]; rfl
  | 1 => rw [h1]; rfl
  | 2 => rw [h2]; rfl
  | 3 => rw [h3]; rfl
  | 4 => rw [h4]; rfl
  | 5 => rw [h5]; rfl
  | 6 => rw [h6]; rfl
  | 7 => rw [h7]; rfl
  | 8 => rw [h8]; rfl
  | 9 => rw [h9]; rfl
  | n + 10 =>
    rw [h10, fsDuring, if_neg (by omega), if_neg (by omega), if_neg (by omega), if_neg (by omega),
      if_neg (by omega)]

theorem snd_upsertSteps_of_modify_none (hkey : req.session.hasAuthKey = true)
    (hm : req.modify (stored fs) = none) (n : ℕ) :
    (upsertSteps req fs n).2 = if n = 0 then fs else lockFs fs := by
  obtain ⟨h1, h2, h3, -⟩ := upsertSteps_read fs hkey
  obtain ⟨h4, h5⟩ := upsertSteps_of_modify_none fs hkey hm
  match n with
  | 0 => rw [upsertSteps_zero fs hkey]; rfl
  | 1 => rw [h1]; rfl
  | 2 => rw [h2]; rfl
  | 3 => rw [h3]; rfl
  | 4 => rw [h4]; rfl
  | n + 5 => rw [h5, if_neg (by omega)]

/-! ## Where the old contents are -/

def lockInode : ℕ :=
  (fs.openCreat .bin).1

theorem lockInode_ne : lockInode fs ≠ (tmpFs fs).1 :=
  (bin_syncedFs fs StoreFile.empty).2.2.symm

/-- The old contents are safe in `x`: on the disk, in the inode that was locked. -/
def OldSafe (x : Fs) : Prop :=
  x.synced (lockInode fs) = true ∧ x.data (lockInode fs) = (fs.read .bin).getD []

variable {fs} (hdisk : ∀ i, fs.dir .bin = some i → fs.synced i = true)

include hdisk

theorem oldSafe_lockFs : OldSafe fs (lockFs fs) :=
  ⟨fs.synced_openCreat .bin hdisk, (fs.openCreat_spec .bin).2.2.1⟩

theorem oldSafe_tmpFs : OldSafe fs (tmpFs fs).2 := by
  obtain ⟨-, -, -, hold, -⟩ := (lockFs fs).openTrunc_spec .tmp
  obtain ⟨hs, hd⟩ := oldSafe_lockFs hdisk
  refine ⟨?_, ?_⟩
  · rw [tmpFs, InodeFs.synced_openTrunc_of_ne _ _ (lockInode_ne fs)]
    exact hs
  · rw [tmpFs, hold _ (lockInode_ne fs)]
    exact hd

variable (st : StoreFile)

theorem oldSafe_writtenFs : OldSafe fs (writtenFs fs st) := by
  obtain ⟨hs, hd⟩ := oldSafe_tmpFs hdisk
  refine ⟨?_, ?_⟩
  · rw [writtenFs, InodeFs.synced_write_of_ne _ _ _ (lockInode_ne fs)]
    exact hs
  · rw [writtenFs, InodeFs.data_write_of_ne _ _ _ (lockInode_ne fs)]
    exact hd

theorem oldSafe_syncedFs : OldSafe fs (syncedFs fs st) := by
  obtain ⟨hs, hd⟩ := oldSafe_writtenFs hdisk st
  refine ⟨?_, hd⟩
  rw [syncedFs, InodeFs.synced_sync_of_ne _ _ (lockInode_ne fs)]
  exact hs

/-- From the first system call to the last, the old contents are safe. -/
theorem oldSafe_fsDuring {n : ℕ} (hn : n ≠ 0) : OldSafe fs (fsDuring fs st n) := by
  rw [fsDuring, if_neg hn]
  split_ifs
  · exact oldSafe_lockFs hdisk
  · exact oldSafe_tmpFs hdisk
  · exact oldSafe_writtenFs hdisk st
  · exact oldSafe_syncedFs hdisk st
  · exact oldSafe_syncedFs hdisk st

omit hdisk

variable (fs)

/-- Before the rename, `session.bin` names what it named before or the inode that was locked; after
it, the inode that holds the new store. -/
theorem dir_fsDuring (n : ℕ) :
    (n = 0 ∧ (fsDuring fs st n).dir .bin = fs.dir .bin) ∨
      (n ≠ 0 ∧ (fsDuring fs st n).dir .bin = some (lockInode fs)) ∨
      (9 ≤ n ∧ (fsDuring fs st n).dir .bin = some (tmpFs fs).1) := by
  have hbin := (bin_syncedFs fs st).1
  rw [fsDuring]
  split_ifs with h0 h4 h5 h6 h8
  · exact Or.inl ⟨h0, rfl⟩
  · exact Or.inr (Or.inl ⟨h0, (fs.openCreat_spec .bin).1⟩)
  · exact Or.inr (Or.inl ⟨h0, hbin⟩)
  · exact Or.inr (Or.inl ⟨h0, hbin⟩)
  · exact Or.inr (Or.inl ⟨h0, hbin⟩)
  · refine Or.inr (Or.inr ⟨by omega, ?_⟩)
    rw [replacedFs, InodeFs.dir_move_target]
    exact ((lockFs fs).openTrunc_spec .tmp).1

theorem newSafe_fsDuring {n : ℕ} (hn : 9 ≤ n) :
    (fsDuring fs st n).synced (tmpFs fs).1 = true ∧
      (fsDuring fs st n).data (tmpFs fs).1 = storeBytes st := by
  rw [fsDuring, if_neg (by omega), if_neg (by omega), if_neg (by omega), if_neg (by omega),
    if_neg (by omega)]
  exact ⟨InodeFs.synced_sync_self _ _, data_syncedFs fs st⟩

end Steps

/-! ## After the crash -/

theorem stored_of_dir {i : ℕ} {content : Bytes} (hdir : x.dir .bin = some i)
    (hdata : x.data i = content) :
    stored x = (readFileLocked content).getD StoreFile.empty := by
  rw [stored, InodeFs.read, hdir, map_some, hdata, getD_some]

theorem stored_of_oldSafe {dir : StorePath → Option ℕ}
    (hs : InodeFs.Survives dir x x') (hx : OldSafe fs x) (hdir : dir .bin = some (lockInode fs)) :
    stored x' = stored fs := by
  rw [stored_of_dir (by rw [hs.dir_eq]; exact hdir) (hs.data_eq _ hx.1), hx.2]
  rfl

theorem stored_of_start (hdisk : ∀ i, fs.dir .bin = some i → fs.synced i = true)
    {dir : StorePath → Option ℕ} (hs : InodeFs.Survives dir x x') (hx : x = fs ∨ OldSafe fs x)
    (hdir : dir .bin = fs.dir .bin) : stored x' = stored fs := by
  rcases hbin : fs.dir .bin with _ | i
  · have hnone : x'.read .bin = none := by
      rw [InodeFs.read, hs.dir_eq, hdir, hbin, map_none]
    have hnone' : fs.read .bin = none := by
      rw [InodeFs.read, hbin, map_none]
    rw [stored, stored, hnone, hnone']
  · have hlock : lockInode fs = i := by
      rw [lockInode, InodeFs.openCreat, hbin]
    rw [hbin, ← hlock] at hdir
    rcases hx with rfl | hx
    · refine stored_of_oldSafe hs ⟨?_, ?_⟩ hdir
      · rw [hlock]
        exact hdisk i hbin
      · rw [hlock, InodeFs.read, hbin, map_some, getD_some]
    · exact stored_of_oldSafe hs hx hdir

/-- **A save is atomic.**  The save of a process stops after `k` system calls; the directory that
survives is that of `m ≤ k`, the contents that survive are those synced.  Then everything the store
answers, now and after further saves, is what it answered before the save, or what it answers after
the whole of it. -/
theorem upsert_crash_atomic (fs : Fs) (hdisk : ∀ i, fs.dir .bin = some i → fs.synced i = true)
    (req : UpsertReq) (m k : ℕ) (hmk : m ≤ k) (fs' : Fs)
    (hs : InodeFs.Survives (upsertSteps req fs m).2.dir (upsertSteps req fs k).2 fs') :
    SameStore fs' fs ∨ SameStore fs' (upsert req fs).2 := by
  by_cases hkey : req.session.hasAuthKey = true
  · rcases hm : req.modify (stored fs) with _ | st
    · rw [snd_upsertSteps_of_modify_none fs hkey hm,
        snd_upsertSteps_of_modify_none fs hkey hm] at hs
      refine Or.inl (sameStore_of_stored ?_)
      by_cases hm0 : m = 0
      · rw [if_pos hm0] at hs
        refine stored_of_start hdisk hs ?_ rfl
        split_ifs
        · exact Or.inl rfl
        · exact Or.inr (oldSafe_lockFs hdisk)
      · rw [if_neg hm0, if_neg (by omega)] at hs
        exact stored_of_oldSafe hs (oldSafe_lockFs hdisk) (fs.openCreat_spec .bin).1
    · rw [snd_upsertSteps_of_modify_some fs hkey hm,
        snd_upsertSteps_of_modify_some fs hkey hm] at hs
      rcases dir_fsDuring fs st m with ⟨hm0, hdir⟩ | ⟨hm0, hdir⟩ | ⟨hm9, hdir⟩
      · refine Or.inl (sameStore_of_stored (stored_of_start hdisk hs ?_ hdir))
        by_cases hk : k = 0
        · rw [hk]
          exact Or.inl rfl
        · exact Or.inr (oldSafe_fsDuring hdisk st hk)
      · refine Or.inl (sameStore_of_stored (stored_of_oldSafe hs ?_ hdir))
        exact oldSafe_fsDuring hdisk st (by omega)
      · refine Or.inr (sameStore_of_stored ?_)
        obtain ⟨hsync, hdata⟩ := newSafe_fsDuring fs st (hm9.trans hmk)
        rw [stored_of_dir (by rw [hs.dir_eq]; exact hdir) ((hs.data_eq _ hsync).trans hdata),
          readFileLocked_storeBytes, upsert_spec, if_pos hkey, hm]
        exact (stored_replacedFs fs st).symm
  · have hfalse : req.session.hasAuthKey = false := Bool.eq_false_iff.mpr hkey
    rw [upsertSteps_of_not_hasAuthKey fs hfalse, upsertSteps_of_not_hasAuthKey fs hfalse] at hs
    exact Or.inl (sameStore_of_stored (stored_of_start hdisk hs (Or.inl rfl) rfl))

/-! ## A save that stops before its data is synced -/

/-- A second DC is saved over a version 1 file; the machine goes down after the sixth system call,
with two bytes of the new file written and nothing else of it on the disk. -/
theorem upsert_crash_atomic_after_write :
    let fs : Fs := InodeFs.single .bin (storeV1Bytes demoEntry)
    let x := (upsertSteps ⟨4, demoSession 8, true⟩ fs 6).2
    SameStore (x.put 1 [0x54, 0x47]) fs ∨
      SameStore (x.put 1 [0x54, 0x47]) (upsert ⟨4, demoSession 8, true⟩ fs).2 := by
  intro fs x
  refine upsert_crash_atomic fs ?_ ⟨4, demoSession 8, true⟩ 6 6 (le_refl 6) (x.put 1 [0x54, 0x47])
    (InodeFs.survives_put ?_ _)
  · intro i hi
    rw [InodeFs.dir_single, some_inj] at hi
    rw [← hi]
    exact InodeFs.synced_sync_self _ _
  · decide +kernel

end TgCli.App
