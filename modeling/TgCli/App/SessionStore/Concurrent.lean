import TgCli.App.SessionStore.Refinement
import Mathlib.Data.List.FinRange

/-!
# Saves of several processes

Any number of saves run at once; a schedule says whose system call comes next, and whether it
succeeds.  `flock` locks the inode that a process has opened, and `rename` gives `session.bin`
another inode.  A process that opened the file before a rename and locks it afterwards holds a lock
that nobody else asks for, and two processes can then be between read and rename at the same time:
the later rename undoes the earlier (`concurrent_saves_lose_update`).

Apart from a failed read, which the source takes for an empty store, it is the only way to lose an
update (`saves_kept_of_current_locks`).
-/

namespace TgCli.App

open Lib TgCli.Core

/-! ## Interleavings -/

variable {n : ℕ}

/-- `n` saves over one file system. -/
structure World (n : ℕ) where
  fs : Fs
  phase : Fin n → Phase

namespace Phase

def wants : Phase → Option ℕ
  | flock l => some l
  | _ => none

/-- The next call is part of reading `session.bin`. -/
def reads : Phase → Bool
  | fopen _ => true
  | fread _ _ => true
  | _ => false

end Phase

namespace World

def start (req : Fin n → UpsertReq) (fs : Fs) : World n :=
  ⟨fs, fun i => (req i).begin⟩

/-- Another open file holds a lock on the inode that `i` wants to lock. -/
def busy (w : World n) (i : Fin n) : Bool :=
  match (w.phase i).wants with
  | some l => (List.finRange n).any fun j => decide (j ≠ i) && decide ((w.phase j).held = some l)
  | none => false

def step (req : Fin n → UpsertReq) (w : World n) (c : Fin n × Bool) : World n :=
  let x := (w.phase c.1).step (w.busy c.1) c.2 (req c.1) w.fs
  ⟨x.2, Function.update w.phase c.1 x.1⟩

def run (req : Fin n → UpsertReq) (w : World n) (sched : List (Fin n × Bool)) : World n :=
  sched.foldl (step req) w

/-- A lock that is about to be granted is on the inode that `session.bin` has now, and a read that
is about to happen succeeds. -/
def SafeCall (w : World n) (c : Fin n × Bool) : Prop :=
  (w.busy c.1 = false → c.2 = true → ∀ l ∈ (w.phase c.1).wants, w.fs.dir .bin = some l) ∧
    ((w.phase c.1).reads = true → c.2 = true)

/-- Every call of the schedule is safe in the state in which it is made. -/
def SafeRun (req : Fin n → UpsertReq) : World n → List (Fin n × Bool) → Prop
  | _, [] => True
  | w, c :: sched => w.SafeCall c ∧ SafeRun req (w.step req c) sched

/-- Once all calls have returned 0, every DC that was saved has an entry, and it is what one of the
processes saved. -/
def NoLostUpdate (req : Fin n → UpsertReq) (w : World n) : Prop :=
  (∀ i, w.phase i = .done true) →
    ∀ i, ∃ j, (req j).dcId = (req i).dcId ∧
      (stored w.fs).lookup (req i).dcId = some (populateEntry (req j).dcId (req j).session)

end World

/-! ## One process -/

namespace Phase

def Critical : Phase → Prop
  | fopen _ => True
  | fread _ _ => True
  | openTmp _ _ => True
  | write _ _ _ => True
  | fsync _ _ => True
  | chmod _ => True
  | rename _ => True
  | _ => False

def Committed : Phase → Prop
  | unlock _ rc => rc = true
  | done rc => rc = true
  | _ => False

def Prepared (req : UpsertReq) (fs : Fs) : Prop :=
  ∃ st t, req.modify (stored fs) = some st ∧ fs.dir .tmp = some t ∧ fs.data t = storeBytes st

/-- What a critical process relies on: its lock is on `session.bin`, and what it has read, opened
and written agrees with the store as it is. -/
def Consistent (req : UpsertReq) (fs : Fs) : Phase → Prop
  | fopen l => fs.dir .bin = some l
  | fread l f => fs.dir .bin = some l ∧ f = l
  | openTmp l st => fs.dir .bin = some l ∧ req.modify (stored fs) = some st
  | write l t st =>
    fs.dir .bin = some l ∧ req.modify (stored fs) = some st ∧ fs.dir .tmp = some t ∧ fs.data t = []
  | fsync l _ => fs.dir .bin = some l ∧ Prepared req fs
  | chmod l => fs.dir .bin = some l ∧ Prepared req fs
  | rename l => fs.dir .bin = some l ∧ Prepared req fs
  | _ => True

theorem consistent_of_not_critical {req : UpsertReq} {fs : Fs} {p : Phase} (h : ¬ p.Critical) :
    p.Consistent req fs := by
  cases p with
  | fopen | fread | openTmp | write | fsync | chmod | rename => exact absurd trivial h
  | openLock | flock | unlock | done => trivial

theorem Committed.not_critical {p : Phase} (h : p.Committed) : ¬ p.Critical := by
  cases p with
  | fopen | fread | openTmp | write | fsync | chmod | rename => exact absurd h id
  | openLock | flock | unlock | done => exact id

theorem Consistent.held {req : UpsertReq} {fs : Fs} {p : Phase} (h : p.Consistent req fs)
    (hc : p.Critical) : ∃ l, p.held = some l ∧ fs.dir .bin = some l := by
  cases p with
  | fopen l => exact ⟨l, rfl, h⟩
  | fread l _ => exact ⟨l, rfl, h.1⟩
  | openTmp l _ => exact ⟨l, rfl, h.1⟩
  | write l _ _ => exact ⟨l, rfl, h.1⟩
  | fsync l _ => exact ⟨l, rfl, h.1⟩
  | chmod l => exact ⟨l, rfl, h.1⟩
  | rename l => exact ⟨l, rfl, h.1⟩
  | openLock | flock | unlock | done => exact absurd hc id

/-- What one call of a critical process comes to: it goes on with the store as it was, gives up with
the store as it was, or replaces the store by the modified one. -/
inductive Effect (req : UpsertReq) (fs : Fs) (p : Phase) (fs' : Fs) : Prop
  | keeps (h : stored fs' = stored fs) (hc : p.Critical) (hp : p.Consistent req fs')
  | aborts (h : stored fs' = stored fs) (hc : ¬ p.Critical) (hp : ¬ p.Committed)
  | commits (h : req.modify (stored fs) = some (stored fs')) (hp : p.Committed)

end Phase

theorem stored_congr {fs fs' : Fs} {l : ℕ} (h : fs.dir .bin = some l)
    (hdir : fs'.dir .bin = fs.dir .bin) (hdata : fs'.data l = fs.data l) :
    stored fs' = stored fs := by
  rw [stored_eq_of_dir h, stored_eq_of_dir (hdir.trans h), hdata]

theorem stored_unlink_tmp (fs : Fs) : stored (fs.unlink .tmp) = stored fs := by
  rw [stored, stored, InodeFs.read, InodeFs.read, InodeFs.dir_unlink_of_ne fs (by decide),
    InodeFs.data_unlink]

namespace Phase

section Critical

variable {req : UpsertReq} {fs : Fs} {l t : ℕ} {st : StoreFile} (busy ok : Bool)

theorem effect_afterRead (h : fs.dir .bin = some l) :
    Effect req fs (afterRead req l (readFileLocked (fs.data l))) fs := by
  rw [afterRead, ← stored_eq_of_dir h]
  rcases hm : req.modify (stored fs) with _ | st
  · exact .aborts rfl id Bool.false_ne_true
  · exact .keeps rfl trivial ⟨h, hm⟩

theorem effect_openTmp (h : (openTmp l st).Consistent req fs) :
    Effect req fs ((openTmp l st).step busy ok req fs).1
      ((openTmp l st).step busy ok req fs).2 := by
  obtain ⟨hbin, hm⟩ := h
  cases ok with
  | false => exact .aborts rfl id Bool.false_ne_true
  | true =>
    obtain ⟨htmp, hother, hempty, hold, -⟩ := fs.openTrunc_spec .tmp
    have hdir : (fs.openTrunc .tmp).2.dir .bin = fs.dir .bin := hother .bin (by decide)
    have hne : l ≠ (fs.openTrunc .tmp).1 :=
      (fs.openTrunc .tmp).2.ne_of_dir (by decide) (hdir.trans hbin) htmp
    have hst : stored (fs.openTrunc .tmp).2 = stored fs := stored_congr hbin hdir (hold l hne)
    show Effect req fs (write l (fs.openTrunc .tmp).1 st) (fs.openTrunc .tmp).2
    exact .keeps hst trivial ⟨hdir.trans hbin, by rw [hst]; exact hm, htmp, hempty⟩

theorem effect_write (h : (write l t st).Consistent req fs) :
    Effect req fs ((write l t st).step busy ok req fs).1
      ((write l t st).step busy ok req fs).2 := by
  obtain ⟨hbin, hm, htmp, hempty⟩ := h
  cases ok with
  | false => exact .aborts (stored_unlink_tmp fs) id Bool.false_ne_true
  | true =>
    have hne : l ≠ t := fs.ne_of_dir (by decide) hbin htmp
    have hst : stored (fs.write t (storeBytes st)) = stored fs :=
      stored_congr hbin rfl (fs.data_write_of_ne t _ hne)
    show Effect req fs (fsync l t) (fs.write t (storeBytes st))
    refine .keeps hst trivial ⟨hbin, st, t, by rw [hst]; exact hm, htmp, ?_⟩
    rw [InodeFs.data_write_self, hempty, List.drop_nil, List.append_nil]

theorem effect_rename (h : (rename l).Consistent req fs) :
    Effect req fs ((rename l).step busy ok req fs).1 ((rename l).step busy ok req fs).2 := by
  obtain ⟨-, st, t, hm, htmp, hdata⟩ := h
  cases ok with
  | false => exact .aborts (stored_unlink_tmp fs) id Bool.false_ne_true
  | true =>
    rw [step, if_pos rfl, InodeFs.rename_of_dir htmp]
    exact .commits (by rw [stored_move htmp hdata]; exact hm) rfl

/-- **One call of a critical process**, when its reads succeed. -/
theorem effect_step {p : Phase} (hc : p.Critical) (h : p.Consistent req fs)
    (hok : p.reads = true → ok = true) :
    Effect req fs (p.step busy ok req fs).1 (p.step busy ok req fs).2 := by
  cases p with
  | fopen l =>
    have hbin : fs.dir .bin = some l := h
    rw [hok rfl, step, if_pos rfl, hbin]
    exact .keeps rfl trivial ⟨hbin, rfl⟩
  | fread l f =>
    obtain ⟨hbin, rfl⟩ := h
    rw [hok rfl, step, if_pos rfl]
    exact effect_afterRead hbin
  | openTmp l st => exact effect_openTmp busy ok h
  | write l t st => exact effect_write busy ok h
  | fsync l t =>
    cases ok with
    | false => exact .keeps rfl trivial h
    | true => exact .keeps rfl trivial h
  | chmod l => exact .keeps rfl trivial h
  | rename l => exact effect_rename busy ok h
  | openLock | flock | unlock | done => exact absurd hc id

end Critical

/-- What one call of a process that is not critical comes to.  Only a granted lock makes it
critical, and only `open` can change the file system, by creating `session.bin`. -/
theorem step_of_not_critical (req : UpsertReq) (fs : Fs) (busy ok : Bool) {p : Phase}
    (hc : ¬ p.Critical) :
    stored (p.step busy ok req fs).2 = stored fs ∧
      (∀ l, fs.dir .bin = some l → (p.step busy ok req fs).2 = fs) ∧
      ((p.step busy ok req fs).1.Committed → p.Committed) ∧
      ((p.step busy ok req fs).1.Critical →
        ∃ l, p = flock l ∧ busy = false ∧ ok = true ∧ p.step busy ok req fs = (fopen l, fs)) := by
  cases p with
  | fopen | fread | openTmp | write | fsync | chmod | rename => exact absurd trivial hc
  | openLock =>
    cases ok with
    | false =>
      exact ⟨rfl, fun _ _ => rfl, fun h => absurd h Bool.false_ne_true, fun h => absurd h id⟩
    | true =>
      refine ⟨stored_lockFs fs, fun l hl => ?_, fun h => absurd h id, fun h => absurd h id⟩
      show (fs.openCreat .bin).2 = fs
      rw [InodeFs.openCreat, hl]
  | flock l =>
    rw [step]
    by_cases h : (busy || !ok) = true
    · rw [if_pos h]
      exact ⟨rfl, fun _ _ => rfl, fun h => absurd h Bool.false_ne_true, fun h => absurd h id⟩
    · rw [if_neg h]
      rw [Bool.or_eq_true, not_or, Bool.not_eq_true, Bool.not_eq_true, Bool.not_eq_false'] at h
      exact ⟨rfl, fun _ _ => rfl, fun h => absurd h id, fun _ => ⟨l, rfl, h.1, h.2, rfl⟩⟩
  | unlock l rc => exact ⟨rfl, fun _ _ => rfl, id, fun h => absurd h id⟩
  | done rc => exact ⟨rfl, fun _ _ => rfl, id, fun h => absurd h id⟩

end Phase

/-! ## Any number of processes -/

namespace World

/-- **The invariant of safe runs**: one critical process at most, which agrees with the store, and
every committed save still in it. -/
structure Invariant (req : Fin n → UpsertReq) (w : World n) : Prop where
  exclusive : ∀ i j, (w.phase i).Critical → (w.phase j).Critical → i = j
  consistent : ∀ i, (w.phase i).Consistent (req i) w.fs
  kept : ∀ i, (w.phase i).Committed → ∃ j, (req j).dcId = (req i).dcId ∧
    (stored w.fs).lookup (req i).dcId = some (populateEntry (req j).dcId (req j).session)

variable {req : Fin n → UpsertReq} {w : World n}

theorem invariant_start (req : Fin n → UpsertReq) (fs : Fs) : Invariant req (start req fs) := by
  have hbegin :
      ∀ i, ¬ ((start req fs).phase i).Critical ∧ ¬ ((start req fs).phase i).Committed := by
    intro i
    show ¬ (req i).begin.Critical ∧ ¬ (req i).begin.Committed
    rw [UpsertReq.begin]
    split
    · exact ⟨id, id⟩
    · exact ⟨id, Bool.false_ne_true⟩
  exact ⟨fun i _ hi _ => absurd hi (hbegin i).1,
    fun i => Phase.consistent_of_not_critical (hbegin i).1, fun i hi => absurd hi (hbegin i).2⟩

theorem busy_of_held {i j : Fin n} {l : ℕ} (hi : w.phase i = .flock l) (hji : j ≠ i)
    (hj : (w.phase j).held = some l) : w.busy i = true := by
  rw [busy, hi]
  refine List.any_eq_true.mpr ?_
  exact ⟨j, List.mem_finRange j, by simp [hji, hj]⟩

theorem Invariant.not_critical_of_granted (hw : Invariant req w) {c : Fin n × Bool} {l : ℕ}
    (hs : w.SafeCall c) (hi : w.phase c.1 = .flock l) (hbusy : w.busy c.1 = false)
    (hok : c.2 = true) (j : Fin n) : ¬ (w.phase j).Critical := by
  intro hj
  have hji : j ≠ c.1 := by
    rintro rfl
    rw [hi] at hj
    exact hj
  obtain ⟨l', hheld, hdir⟩ := (hw.consistent j).held hj
  have hl : l' = l := Option.some_inj.mp (hdir.symm.trans (hs.1 hbusy hok l (by rw [hi]; rfl)))
  rw [hl] at hheld
  rw [busy_of_held hi hji hheld] at hbusy
  exact absurd hbusy Bool.noConfusion

theorem phase_step_self (req : Fin n → UpsertReq) (w : World n) (c : Fin n × Bool) :
    (w.step req c).phase c.1 = ((w.phase c.1).step (w.busy c.1) c.2 (req c.1) w.fs).1 :=
  Function.update_self ..

variable {c : Fin n × Bool}

theorem phase_step_of_ne (req : Fin n → UpsertReq) (w : World n) {j : Fin n}
    (h : j ≠ c.1) : (w.step req c).phase j = w.phase j :=
  Function.update_of_ne h ..

theorem Invariant.step_of_not_critical (hw : Invariant req w)
    (hs : w.SafeCall c) (hc : ¬ (w.phase c.1).Critical) : Invariant req (w.step req c) := by
  obtain ⟨hst, hfs, hcom, hcrit⟩ :=
    Phase.step_of_not_critical (req c.1) w.fs (w.busy c.1) c.2 hc
  rw [← phase_step_self] at hcom hcrit
  -- a process that is critical now was so before, or has just been granted the only lock
  have hwas : ∀ i, ((w.step req c).phase i).Critical →
      (i = c.1 ∧ ∀ j, ¬ (w.phase j).Critical) ∨ (i ≠ c.1 ∧ (w.phase i).Critical) := by
    intro i hi
    by_cases hic : i = c.1
    · rw [hic] at hi
      obtain ⟨l, hl, hbusy, hok, -⟩ := hcrit hi
      exact .inl ⟨hic, hw.not_critical_of_granted hs hl hbusy hok⟩
    · rw [phase_step_of_ne req w hic] at hi
      exact .inr ⟨hic, hi⟩
  refine ⟨fun i j hi hj => ?_, fun i => ?_, fun i hi => ?_⟩
  · rcases hwas i hi with ⟨rfl, hnone⟩ | ⟨-, hi⟩
    · rcases hwas j hj with ⟨rfl, -⟩ | ⟨-, hj⟩
      · rfl
      · exact absurd hj (hnone j)
    · rcases hwas j hj with ⟨-, hnone⟩ | ⟨-, hj⟩
      · exact absurd hi (hnone i)
      · exact hw.exclusive i j hi hj
  · by_cases hi : ((w.step req c).phase i).Critical
    · rcases hwas i hi with ⟨rfl, -⟩ | ⟨hic, hi⟩
      · obtain ⟨l, hl, hbusy, hok, hgrant⟩ := hcrit hi
        rw [phase_step_self, hgrant]
        rw [World.step, hgrant]
        exact hs.1 hbusy hok l (by rw [hl]; rfl)
      · obtain ⟨l, -, hl⟩ := (hw.consistent i).held hi
        rw [phase_step_of_ne req w hic, World.step, hfs l hl]
        exact hw.consistent i
    · exact Phase.consistent_of_not_critical hi
  · have hi' : (w.phase i).Committed := by
      by_cases hic : i = c.1
      · rw [hic] at hi ⊢
        exact hcom hi
      · rwa [phase_step_of_ne req w hic] at hi
    obtain ⟨j, hj, hlook⟩ := hw.kept i hi'
    exact ⟨j, hj, by rw [← hlook]; exact congrArg (StoreFile.lookup · _) hst⟩

theorem Invariant.step_of_critical (hw : Invariant req w)
    (hs : w.SafeCall c) (hc : (w.phase c.1).Critical) : Invariant req (w.step req c) := by
  have heff := Phase.effect_step (w.busy c.1) c.2 hc (hw.consistent c.1) hs.2
  rw [← phase_step_self] at heff
  have hother : ∀ i, i ≠ c.1 → ¬ ((w.step req c).phase i).Critical := by
    intro i hic hi
    rw [phase_step_of_ne req w hic] at hi
    exact hic (hw.exclusive i c.1 hi hc)
  have hself : ∀ i, ((w.step req c).phase i).Critical → i = c.1 :=
    fun i hi => by_contra fun hic => hother i hic hi
  -- a save that had been committed before is another process's
  have hkept : ∀ i, i ≠ c.1 → ((w.step req c).phase i).Committed → ∃ j,
      (req j).dcId = (req i).dcId ∧
        (stored w.fs).lookup (req i).dcId = some (populateEntry (req j).dcId (req j).session) := by
    intro i hic hi
    rw [phase_step_of_ne req w hic] at hi
    exact hw.kept i hi
  refine ⟨fun i j hi hj => (hself i hi).trans (hself j hj).symm, fun i => ?_, fun i hi => ?_⟩
  · by_cases hi : ((w.step req c).phase i).Critical
    · obtain rfl := hself i hi
      cases heff with
      | keeps h hcrit hp => exact hp
      | aborts h hcrit hp => exact absurd hi hcrit
      | commits h hp => exact absurd hi hp.not_critical
    · exact Phase.consistent_of_not_critical hi
  · by_cases hic : i = c.1
    · subst hic
      cases heff with
      | keeps h hcrit hp => exact absurd hcrit hi.not_critical
      | aborts h hcrit hp => exact absurd hi hp
      | commits h hp => exact ⟨c.1, rfl, (lookup_modify h _).trans (if_pos rfl)⟩
    · obtain ⟨j, hj, hlook⟩ := hkept i hic hi
      cases heff with
      | keeps h hcrit hp => exact ⟨j, hj, by rw [← hlook]; exact congrArg (StoreFile.lookup · _) h⟩
      | aborts h hcrit hp => exact ⟨j, hj, by rw [← hlook]; exact congrArg (StoreFile.lookup · _) h⟩
      | commits h hp =>
        by_cases hd : (req i).dcId = (req c.1).dcId
        · exact ⟨c.1, hd.symm, (lookup_modify h _).trans (if_pos hd)⟩
        · exact ⟨j, hj, ((lookup_modify h _).trans (if_neg hd)).trans hlook⟩

/-- **One system call of a safe run** keeps the invariant. -/
theorem Invariant.step (hw : Invariant req w) (hs : w.SafeCall c) :
    Invariant req (w.step req c) := by
  by_cases hc : (w.phase c.1).Critical
  · exact hw.step_of_critical hs hc
  · exact hw.step_of_not_critical hs hc

/-- **A safe run** keeps the invariant. -/
theorem Invariant.run (hw : Invariant req w) {sched : List (Fin n × Bool)}
    (hs : SafeRun req w sched) : Invariant req (w.run req sched) := by
  induction sched generalizing w with
  | nil => exact hw
  | cons c sched ih => exact ih (hw.step hs.1) hs.2

theorem Invariant.noLostUpdate (hw : Invariant req w) : NoLostUpdate req w :=
  fun hdone i => hw.kept i (by rw [hdone i]; rfl)

end World

/-- **No update is lost under current locks.**  In every run of any number of saves in which every
granted lock is on the inode that `session.bin` has at that moment, and every read succeeds, no
successful update is lost, and one process at most is between lock and rename. -/
theorem saves_kept_of_current_locks (req : Fin n → UpsertReq) (fs : Fs)
    (sched : List (Fin n × Bool)) (hsafe : World.SafeRun req (World.start req fs) sched) :
    ((World.start req fs).run req sched).NoLostUpdate req ∧
      ∀ i j, (((World.start req fs).run req sched).phase i).Critical →
        (((World.start req fs).run req sched).phase j).Critical → i = j :=
  have h := (World.invariant_start req fs).run hsafe
  ⟨h.noLostUpdate, h.exclusive⟩

/-! ## A safe run and an unsafe one -/

namespace World

instance (w : World n) (c : Fin n × Bool) : Decidable (w.SafeCall c) :=
  inferInstanceAs (Decidable (_ ∧ _))

instance decidableSafeRun (req : Fin n → UpsertReq) :
    (w : World n) → (sched : List (Fin n × Bool)) → Decidable (SafeRun req w sched)
  | _, [] => isTrue trivial
  | w, c :: sched =>
    have := decidableSafeRun req (w.step req c) sched
    inferInstanceAs (Decidable (_ ∧ _))

end World

def demoReq (i : Fin 3) : UpsertReq :=
  ⟨i.val.toInt32 + 1, demoSession i.val.toUInt64, false⟩

/-- Each process opens and locks the file that the one before has just renamed into place, while
that one still holds its lock on the old file. -/
def demoCurrentLock : List (Fin 3) :=
  List.replicate 9 0 ++ [1, 1, 0] ++ List.replicate 7 1 ++ [2, 2, 1] ++ List.replicate 8 2

theorem saves_kept_demoCurrentLock :
    let w := (World.start demoReq InodeFs.empty).run demoReq (demoCurrentLock.map (·, true))
    (w.phase 0 = .done true ∧ w.phase 1 = .done true ∧ w.phase 2 = .done true) ∧
      w.NoLostUpdate demoReq :=
  ⟨by decide +kernel, (saves_kept_of_current_locks demoReq InodeFs.empty _ (by decide +kernel)).1⟩

/-- Processes 0 and 1 open the same inode; 0 replaces it and returns; 1 then locks the replaced
inode, 2 opens and locks the new one, and both read before 1 renames. -/
def demoStaleLock : List (Fin 3) :=
  [0, 1] ++ List.replicate 9 0 ++ [1] ++ [2, 2] ++ [1, 1] ++ [2, 2] ++ List.replicate 6 1 ++
    List.replicate 6 2

theorem concurrent_saves_lose_update :
    let w := (World.start demoReq InodeFs.empty).run demoReq (demoStaleLock.map (·, true))
    (w.phase 0 = .done true ∧ w.phase 1 = .done true ∧ w.phase 2 = .done true) ∧
      (stored w.fs).lookup (demoReq 1).dcId = none ∧ ¬ w.NoLostUpdate demoReq := by
  intro w
  have hdone : w.phase 0 = .done true ∧ w.phase 1 = .done true ∧ w.phase 2 = .done true := by
    decide +kernel
  have hlost : (stored w.fs).lookup (demoReq 1).dcId = none := by
    decide +kernel
  refine ⟨hdone, hlost, fun h => ?_⟩
  have hall : ∀ i, w.phase i = .done true :=
    Fin.forall_fin_succ.mpr ⟨hdone.1, Fin.forall_fin_two.mpr hdone.2⟩
  obtain ⟨j, -, hj⟩ := h hall 1
  rw [hlost] at hj
  exact absurd hj (by simp)

end TgCli.App
