import TgCli.App.SessionStore.Format
import TgCli.Lib.InodeFs

/-!
# `app/session_store.c`: the calls

A save is a read-modify-write cycle of ten system calls, `upsert` in the source: open and lock
`session.bin`, open and read it again by its path, write `session.bin.tmp`, sync it, set its mode,
rename it over `session.bin`, and close the lock.  It is a machine here, one `Phase` per system
call, so that calls of several processes can be interleaved and a call can stop anywhere.  One
process that is not disturbed runs the machine to its end: `upsert`.

A system call takes two answers from outside: whether another process holds the lock, and whether
the call succeeds.  The calls that a failure does not stop go on as the source does: a failed
`fopen` counts as an absent file, a failed `fsync` or `chmod` is only logged.
-/

namespace TgCli.App

open Option List Lib TgCli.Core

inductive StorePath where
  | bin
  | tmp
  deriving DecidableEq

abbrev Fs := InodeFs StorePath

/-! ## Entries -/

def findEntry (st : StoreFile) (dcId : Int32) : Option ℕ :=
  st.entries.findIdx? fun e => decide (e.dcId = dcId)

def populateEntry (dcId : Int32) (s : MtProtoSession) : StoreEntry :=
  ⟨dcId, s.serverSalt, s.sessionId, s.authKey⟩

/-- `apply_entry`, which sets every field of the session. -/
def applyEntry (e : StoreEntry) : MtProtoSession where
  sessionId := e.sessionId
  serverSalt := e.serverSalt
  seqNo := 0
  lastMsgId := 0
  authKey := e.authKey
  hasAuthKey := true

theorem StoreFile.length_set_le (st : StoreFile) (i : ℕ) (e : StoreEntry) :
    (st.entries.set i e).length ≤ sessionStoreMaxDcs := by
  rw [length_set]
  exact st.count_le

theorem StoreFile.length_append_le (st : StoreFile) (e : StoreEntry)
    (h : ¬ st.entries.length ≥ sessionStoreMaxDcs) :
    (st.entries ++ [e]).length ≤ sessionStoreMaxDcs := by
  rw [length_append, length_singleton]
  omega

/-- The arguments of `upsert`. -/
structure UpsertReq where
  dcId : Int32
  session : MtProtoSession
  setHome : Bool
  deriving DecidableEq

namespace UpsertReq

def home (req : UpsertReq) (st : StoreFile) : Int32 :=
  if req.setHome || decide (st.homeDcId = 0) then req.dcId else st.homeDcId

/-- What `upsert` does to the store between reading and writing; `none` when no slot is left. -/
def modify (req : UpsertReq) (st : StoreFile) : Option StoreFile :=
  let e := populateEntry req.dcId req.session
  match findEntry st req.dcId with
  | some i => some ⟨req.home st, st.entries.set i e, st.length_set_le i e⟩
  | none =>
    if h : st.entries.length ≥ sessionStoreMaxDcs then none
    else some ⟨req.home st, st.entries ++ [e], st.length_append_le e h⟩

end UpsertReq

/-! ## The machine -/

/-- Where an `upsert` is: the system call it makes next, with the descriptors and the data it
holds.  `lock` is the inode it opened and locked. -/
inductive Phase where
  | openLock
  | flock (lock : ℕ)
  | fopen (lock : ℕ)
  | fread (lock file : ℕ)
  | openTmp (lock : ℕ) (st : StoreFile)
  | write (lock tmp : ℕ) (st : StoreFile)
  | fsync (lock tmp : ℕ)
  | chmod (lock : ℕ)
  | rename (lock : ℕ)
  | unlock (lock : ℕ) (rc : Bool)
  | done (rc : Bool)
  deriving DecidableEq

namespace Phase

/-- The inode an `upsert` holds its exclusive lock on. -/
def held : Phase → Option ℕ
  | openLock => none
  | flock _ => none
  | fopen l => some l
  | fread l _ => some l
  | openTmp l _ => some l
  | write l _ _ => some l
  | fsync l _ => some l
  | chmod l => some l
  | rename l => some l
  | unlock l _ => some l
  | done _ => none

/-- What follows the read: a corrupt file is replaced by an empty store. -/
def afterRead (req : UpsertReq) (lock : ℕ) (read : Option StoreFile) : Phase :=
  match req.modify (read.getD StoreFile.empty) with
  | none => unlock lock false
  | some st => openTmp lock st

/-- One system call of `upsert`: `busy` when another open file holds a lock on the inode, `ok` when
the call succeeds. -/
def step (busy ok : Bool) (req : UpsertReq) (fs : Fs) : Phase → Phase × Fs
  | openLock =>
    if !ok then (done false, fs) else
    let o := fs.openCreat .bin
    (flock o.1, o.2)
  | flock l => if busy || !ok then (done false, fs) else (fopen l, fs)
  | fopen l =>
    match (if ok then fs.dir .bin else none) with
    | none => (afterRead req l (some StoreFile.empty), fs)
    | some f => (fread l f, fs)
  | fread l f => (afterRead req l (readFileLocked (if ok then fs.data f else [])), fs)
  | openTmp l st =>
    if !ok then (unlock l false, fs) else
    let o := fs.openTrunc .tmp
    (write l o.1 st, o.2)
  | write l t st =>
    if !ok then (unlock l false, fs.unlink .tmp) else (fsync l t, fs.write t (storeBytes st))
  | fsync l t => (chmod l, if ok then fs.sync t else fs)
  | chmod l => (rename l, fs)
  | rename l =>
    match (if ok then fs.rename .tmp .bin else none) with
    | none => (unlock l false, fs.unlink .tmp)
    | some fs' => (unlock l true, fs')
  | unlock _ rc => (done rc, fs)
  | done rc => (done rc, fs)

def rc : Phase → Bool
  | done rc => rc
  | _ => false

end Phase

/-- The first phase: a session without a key is refused before anything is opened. -/
def UpsertReq.begin (req : UpsertReq) : Phase :=
  if req.session.hasAuthKey then .openLock else .done false

/-- `n` system calls of one process that nothing disturbs. -/
def upsertSteps (req : UpsertReq) (fs : Fs) (n : ℕ) : Phase × Fs :=
  (fun x : Phase × Fs => x.1.step false true req x.2)^[n] (req.begin, fs)

/-- `upsert`, run to its end. -/
def upsert (req : UpsertReq) (fs : Fs) : Bool × Fs :=
  let x := upsertSteps req fs 10
  (x.1.rc, x.2)

/-- `upsert` when the `k`-th system call gets the answers `ans k`. -/
def upsertWith (ans : ℕ → Bool × Bool) (req : UpsertReq) (fs : Fs) : Bool × Fs :=
  let x := (List.range 10).foldl (fun x k => x.1.step (ans k).1 (ans k).2 req x.2) (req.begin, fs)
  (x.1.rc, x.2)

/-! ## The public calls -/

def sessionStoreSave (s : MtProtoSession) (dcId : Int32) (fs : Fs) : Bool × Fs :=
  upsert ⟨dcId, s, true⟩ fs

def sessionStoreSaveDc (dcId : Int32) (s : MtProtoSession) (fs : Fs) : Bool × Fs :=
  upsert ⟨dcId, s, false⟩ fs

/-- The reading part of the two loads: the lock creates the file when it is absent. -/
def lockAndRead (fs : Fs) : Option StoreFile × Fs :=
  let fs := (fs.openCreat .bin).2
  ((fs.read .bin).bind readFileLocked, fs)

def StoreFile.lookup (st : StoreFile) (dcId : Int32) : Option StoreEntry :=
  (findEntry st dcId).bind (st.entries[·]?)

/-- `session_store_load`: the session and the home DC. -/
def sessionStoreLoad (fs : Fs) : Option (MtProtoSession × Int32) × Fs :=
  let r := lockAndRead fs
  (do
    let st ← r.1
    if st.entries.length = 0 ∨ st.homeDcId = 0 then none
    let e ← st.lookup st.homeDcId
    some (applyEntry e, st.homeDcId), r.2)

def sessionStoreLoadDc (dcId : Int32) (fs : Fs) : Option MtProtoSession × Fs :=
  let r := lockAndRead fs
  (do
    let st ← r.1
    let e ← st.lookup dcId
    some (applyEntry e), r.2)

def sessionStoreClear (fs : Fs) : Fs :=
  fs.unlink .bin

/-! ## One process that nothing disturbs -/

/-- The store that the next save starts from; an absent or unreadable file is an empty one. -/
def stored (fs : Fs) : StoreFile :=
  (readFileLocked ((fs.read .bin).getD [])).getD StoreFile.empty

section Sequential

variable (req : UpsertReq) (fs : Fs)

theorem upsertSteps_succ (n : ℕ) :
    upsertSteps req fs (n + 1) =
      (upsertSteps req fs n).1.step false true req (upsertSteps req fs n).2 :=
  Function.iterate_succ_apply' _ n _

/-- The file system once `session.bin` has been opened for the lock. -/
def lockFs : Fs :=
  (fs.openCreat .bin).2

/-- Once `session.bin.tmp` has been opened, and the inode it has. -/
def tmpFs : ℕ × Fs :=
  (lockFs fs).openTrunc .tmp

def writtenFs (st : StoreFile) : Fs :=
  (tmpFs fs).2.write (tmpFs fs).1 (storeBytes st)

def syncedFs (st : StoreFile) : Fs :=
  (writtenFs fs st).sync (tmpFs fs).1

def replacedFs (st : StoreFile) : Fs :=
  (syncedFs fs st).move .tmp .bin

variable {req}

theorem upsertSteps_of_not_hasAuthKey (h : req.session.hasAuthKey = false) (n : ℕ) :
    upsertSteps req fs n = (.done false, fs) := by
  induction n with
  | zero => rw [upsertSteps, Function.iterate_zero, id, UpsertReq.begin, h]; rfl
  | succ n ih => rw [upsertSteps_succ, ih]; rfl

variable (h : req.session.hasAuthKey = true)

include h

theorem upsertSteps_zero : upsertSteps req fs 0 = (.openLock, fs) := by
  rw [upsertSteps, Function.iterate_zero, id, UpsertReq.begin, if_pos h]

theorem upsertSteps_read :
    upsertSteps req fs 1 = (.flock (fs.openCreat .bin).1, lockFs fs) ∧
      upsertSteps req fs 2 = (.fopen (fs.openCreat .bin).1, lockFs fs) ∧
      upsertSteps req fs 3 =
        (.fread (fs.openCreat .bin).1 (fs.openCreat .bin).1, lockFs fs) ∧
      upsertSteps req fs 4 =
        (.afterRead req (fs.openCreat .bin).1 (readFileLocked ((fs.read .bin).getD [])),
          lockFs fs) := by
  obtain ⟨hdir, -, hdata, -⟩ := fs.openCreat_spec .bin
  have h1 : upsertSteps req fs 1 = (.flock (fs.openCreat .bin).1, lockFs fs) := by
    rw [upsertSteps_succ, upsertSteps_zero fs h]
    rfl
  have h2 : upsertSteps req fs 2 = (.fopen (fs.openCreat .bin).1, lockFs fs) := by
    rw [upsertSteps_succ, h1]
    rfl
  have h3 : upsertSteps req fs 3 =
      (.fread (fs.openCreat .bin).1 (fs.openCreat .bin).1, lockFs fs) := by
    rw [upsertSteps_succ, h2, Phase.step, if_pos rfl, lockFs, hdir]
  refine ⟨h1, h2, h3, ?_⟩
  rw [upsertSteps_succ, h3, Phase.step, if_pos rfl, ← hdata]
  rfl

theorem upsertSteps_of_modify_none (hm : req.modify (stored fs) = none) :
    upsertSteps req fs 4 = (.unlock (fs.openCreat .bin).1 false, lockFs fs) ∧
      ∀ n, upsertSteps req fs (n + 5) = (.done false, lockFs fs) := by
  have h4 : upsertSteps req fs 4 = (.unlock (fs.openCreat .bin).1 false, lockFs fs) := by
    rw [(upsertSteps_read fs h).2.2.2, Phase.afterRead]
    rw [stored] at hm
    rw [hm]
  refine ⟨h4, fun n => ?_⟩
  induction n with
  | zero => rw [Nat.zero_add, upsertSteps_succ, h4]; rfl
  | succ n ih => rw [Nat.succ_add, upsertSteps_succ, ih]; rfl

theorem upsertSteps_of_modify_some {st : StoreFile} (hm : req.modify (stored fs) = some st) :
    upsertSteps req fs 4 = (.openTmp (fs.openCreat .bin).1 st, lockFs fs) ∧
      upsertSteps req fs 5 = (.write (fs.openCreat .bin).1 (tmpFs fs).1 st, (tmpFs fs).2) ∧
      upsertSteps req fs 6 = (.fsync (fs.openCreat .bin).1 (tmpFs fs).1, writtenFs fs st) ∧
      upsertSteps req fs 7 = (.chmod (fs.openCreat .bin).1, syncedFs fs st) ∧
      upsertSteps req fs 8 = (.rename (fs.openCreat .bin).1, syncedFs fs st) ∧
      upsertSteps req fs 9 = (.unlock (fs.openCreat .bin).1 true, replacedFs fs st) ∧
      ∀ n, upsertSteps req fs (n + 10) = (.done true, replacedFs fs st) := by
  have h4 : upsertSteps req fs 4 = (.openTmp (fs.openCreat .bin).1 st, lockFs fs) := by
    rw [(upsertSteps_read fs h).2.2.2, Phase.afterRead]
    rw [stored] at hm
    rw [hm]
  have h5 : upsertSteps req fs 5 =
      (.write (fs.openCreat .bin).1 (tmpFs fs).1 st, (tmpFs fs).2) := by
    rw [upsertSteps_succ, h4]
    rfl
  have h6 : upsertSteps req fs 6 =
      (.fsync (fs.openCreat .bin).1 (tmpFs fs).1, writtenFs fs st) := by
    rw [upsertSteps_succ, h5]
    rfl
  have h7 : upsertSteps req fs 7 = (.chmod (fs.openCreat .bin).1, syncedFs fs st) := by
    rw [upsertSteps_succ, h6]
    rfl
  have h8 : upsertSteps req fs 8 = (.rename (fs.openCreat .bin).1, syncedFs fs st) := by
    rw [upsertSteps_succ, h7]
    rfl
  have h9 : upsertSteps req fs 9 = (.unlock (fs.openCreat .bin).1 true, replacedFs fs st) := by
    have htmp : (syncedFs fs st).dir .tmp = some (tmpFs fs).1 :=
      ((lockFs fs).openTrunc_spec .tmp).1
    rw [upsertSteps_succ, h8, Phase.step, if_pos rfl, InodeFs.rename_of_dir htmp]
    rfl
  refine ⟨h4, h5, h6, h7, h8, h9, fun n => ?_⟩
  induction n with
  | zero => rw [Nat.zero_add, upsertSteps_succ, h9]; rfl
  | succ n ih => rw [Nat.succ_add, upsertSteps_succ, ih]; rfl

end Sequential

/-! ## What the steps do to the two files -/

section Files

variable (fs : Fs) (st : StoreFile)

theorem read_lockFs :
    (lockFs fs).read .bin = some ((fs.read .bin).getD []) ∧
      (lockFs fs).read .tmp = fs.read .tmp := by
  obtain ⟨hdir, hother, hdata, hold, -⟩ := fs.openCreat_spec .bin
  refine ⟨?_, ?_⟩
  · rw [InodeFs.read, lockFs, hdir, map_some, hdata]
  · rw [InodeFs.read, InodeFs.read, lockFs, hother .tmp (by decide)]
    rcases htmp : fs.dir .tmp with _ | i
    · rfl
    · rw [map_some, map_some, hold i (fs.dir_lt _ _ htmp)]

theorem stored_lockFs : stored (lockFs fs) = stored fs := by
  rw [stored, stored, (read_lockFs fs).1, getD_some]

/-- Until the rename, `session.bin` is the file that was locked, with its contents. -/
theorem bin_syncedFs :
    (syncedFs fs st).dir .bin = some (fs.openCreat .bin).1 ∧
      (syncedFs fs st).data (fs.openCreat .bin).1 = (fs.read .bin).getD [] ∧
      (tmpFs fs).1 ≠ (fs.openCreat .bin).1 := by
  obtain ⟨hdir, -, hdata, -⟩ := fs.openCreat_spec .bin
  obtain ⟨htmp, hother, -, hold, -⟩ := (lockFs fs).openTrunc_spec .tmp
  have hbin : (tmpFs fs).2.dir .bin = some (fs.openCreat .bin).1 :=
    (hother .bin (by decide)).trans hdir
  have hne : (tmpFs fs).1 ≠ (fs.openCreat .bin).1 :=
    (tmpFs fs).2.ne_of_dir (by decide) htmp hbin
  refine ⟨hbin, ?_, hne⟩
  rw [syncedFs, InodeFs.data_sync, writtenFs, InodeFs.data_write_of_ne _ _ _ hne.symm, tmpFs,
    hold _ hne.symm]
  exact hdata

theorem data_syncedFs : (syncedFs fs st).data (tmpFs fs).1 = storeBytes st := by
  obtain ⟨-, -, hempty, -⟩ := (lockFs fs).openTrunc_spec .tmp
  have hempty : (tmpFs fs).2.data (tmpFs fs).1 = [] := hempty
  rw [syncedFs, InodeFs.data_sync, writtenFs, InodeFs.data_write_self, hempty, drop_nil,
    append_nil]

theorem read_replacedFs : (replacedFs fs st).read .bin = some (storeBytes st) := by
  have htmp : (syncedFs fs st).dir .tmp = some (tmpFs fs).1 := ((lockFs fs).openTrunc_spec .tmp).1
  rw [InodeFs.read, replacedFs, InodeFs.dir_move_target, htmp, InodeFs.data_move, map_some,
    data_syncedFs]

theorem stored_replacedFs : stored (replacedFs fs st) = st := by
  rw [stored, read_replacedFs, getD_some, readFileLocked_storeBytes, getD_some]

end Files

theorem stored_eq_of_dir {fs : Fs} {l : ℕ} (h : fs.dir .bin = some l) :
    stored fs = (readFileLocked (fs.data l)).getD StoreFile.empty := by
  rw [stored, InodeFs.read, h, map_some, getD_some]

theorem stored_move {fs : Fs} {t : ℕ} {st : StoreFile} (htmp : fs.dir .tmp = some t)
    (hdata : fs.data t = storeBytes st) : stored (fs.move .tmp .bin) = st := by
  rw [stored_eq_of_dir ((fs.dir_move_target .tmp .bin).trans htmp), InodeFs.data_move, hdata,
    readFileLocked_storeBytes, getD_some]

/-- **What a save does.**  It fails and leaves the contents when the session has no key or no slot
is left; otherwise `session.bin` holds the modified store. -/
theorem upsert_spec (req : UpsertReq) (fs : Fs) :
    upsert req fs =
      if req.session.hasAuthKey then
        match req.modify (stored fs) with
        | none => (false, lockFs fs)
        | some st => (true, replacedFs fs st)
      else (false, fs) := by
  rw [upsert]
  cases h : req.session.hasAuthKey
  · rw [upsertSteps_of_not_hasAuthKey fs h]
    rfl
  · rcases hm : req.modify (stored fs) with _ | st
    · rw [(upsertSteps_of_modify_none fs h hm).2 5]
      rfl
    · obtain ⟨-, -, -, -, -, -, hdone⟩ := upsertSteps_of_modify_some fs h hm
      rw [hdone 0]
      rfl

/-! ## A save whose system calls may fail -/

namespace Phase

/-- What is on its way to the disk, and what a save that returned 0 has put there, satisfies `P`. -/
def Carries (P : StoreFile → Prop) (fs : Fs) : Phase → Prop
  | openTmp _ st => P st
  | write _ t st => P st ∧ fs.dir .tmp = some t ∧ fs.data t = []
  | fsync _ _ => ∃ st t, P st ∧ fs.dir .tmp = some t ∧ fs.data t = storeBytes st
  | chmod _ => ∃ st t, P st ∧ fs.dir .tmp = some t ∧ fs.data t = storeBytes st
  | rename _ => ∃ st t, P st ∧ fs.dir .tmp = some t ∧ fs.data t = storeBytes st
  | unlock _ rc => rc = true → P (stored fs)
  | done rc => rc = true → P (stored fs)
  | _ => True

variable {P : StoreFile → Prop}

theorem carries_afterRead {req : UpsertReq}
    (hP : ∀ st st', req.modify st = some st' → P st') (l : ℕ) (read : Option StoreFile) (fs : Fs) :
    (afterRead req l read).Carries P fs := by
  rw [afterRead]
  rcases hm : req.modify (read.getD StoreFile.empty) with _ | st
  · exact fun h => absurd h Bool.false_ne_true
  · exact hP _ _ hm

theorem carries_step {req : UpsertReq}
    (hP : ∀ st st', req.modify st = some st' → P st') (busy ok : Bool) {fs : Fs} {p : Phase}
    (h : p.Carries P fs) : (p.step busy ok req fs).1.Carries P (p.step busy ok req fs).2 := by
  cases p with
  | openLock => cases ok with
    | false => exact fun h => absurd h Bool.false_ne_true
    | true => trivial
  | flock l =>
    rw [step]
    split_ifs
    · exact fun h => absurd h Bool.false_ne_true
    · trivial
  | fopen l =>
    rw [step]
    rcases (if ok then fs.dir .bin else none) with _ | f
    · exact carries_afterRead hP l (some StoreFile.empty) fs
    · trivial
  | fread l f => exact carries_afterRead hP l _ fs
  | openTmp l st => cases ok with
    | false => exact fun h => absurd h Bool.false_ne_true
    | true =>
      obtain ⟨htmp, -, hempty, -⟩ := fs.openTrunc_spec .tmp
      exact ⟨h, htmp, hempty⟩
  | write l t st => cases ok with
    | false => exact fun h => absurd h Bool.false_ne_true
    | true =>
      obtain ⟨hst, htmp, hempty⟩ := h
      refine ⟨st, t, hst, htmp, ?_⟩
      show (fs.write t (storeBytes st)).data t = storeBytes st
      rw [InodeFs.data_write_self, hempty, drop_nil, append_nil]
  | fsync l t => cases ok with
    | false => exact h
    | true => exact h
  | chmod l => exact h
  | rename l =>
    obtain ⟨st, t, hst, htmp, hdata⟩ := h
    cases ok with
    | false => exact fun h => absurd h Bool.false_ne_true
    | true =>
      rw [step, if_pos rfl, InodeFs.rename_of_dir htmp]
      intro _
      rw [stored_move htmp hdata]
      exact hst
  | unlock l rc => exact h
  | done rc => exact h

theorem carries_foldl {req : UpsertReq}
    (hP : ∀ st st', req.modify st = some st' → P st') (ans : ℕ → Bool × Bool) (ks : List ℕ)
    {x : Phase × Fs} (h : x.1.Carries P x.2) :
    let y := ks.foldl (fun x k => x.1.step (ans k).1 (ans k).2 req x.2) x
    y.1.Carries P y.2 := by
  induction ks generalizing x with
  | nil => exact h
  | cons k ks ih => exact ih (carries_step hP _ _ h)

theorem carries_begin (P : StoreFile → Prop) (req : UpsertReq) (fs : Fs) :
    req.begin.Carries P fs := by
  rw [UpsertReq.begin]
  split_ifs
  · trivial
  · exact fun h => absurd h Bool.false_ne_true

end Phase

/-- **A save that returns 0 has saved.**  Whichever of its system calls failed, what is stored is an
old store --- the one that was there, or an empty one --- with the new entry. -/
theorem upsertWith_true {ans : ℕ → Bool × Bool} {req : UpsertReq} {fs : Fs}
    (h : (upsertWith ans req fs).1 = true) :
    ∃ st, req.modify st = some (stored (upsertWith ans req fs).2) := by
  have hcarries := Phase.carries_foldl (P := fun st' => ∃ st, req.modify st = some st')
    (fun st _ hm => ⟨st, hm⟩) ans (range 10) (x := (req.begin, fs)) (Phase.carries_begin _ req fs)
  rw [upsertWith] at h ⊢
  generalize (range 10).foldl _ (req.begin, fs) = x at hcarries h ⊢
  obtain ⟨p, fs'⟩ := x
  cases p with
  | done rc => exact hcarries h
  | _ => exact absurd h Bool.false_ne_true

end TgCli.App
