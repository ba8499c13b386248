import TgCli.App.SessionStore.Refinement

/-!
# Files of a newer client

A `session.bin` with a version above 2 was written by a newer client.  Loading refuses it and
leaves it.  Saving does not: `read_file_locked` has one code for "corrupt" and for "unsupported",
and `upsert` takes it for the first and starts afresh.  So the bytes survive a sequence of calls
exactly when no call in it saves a session that has a key (`futureVersion_kept_iff`).
-/

namespace TgCli.App

open List Lib TgCli.Core

/-- The contents of a file with our magic and a version above ours. -/
structure FutureVersion (content : Bytes) : Prop where
  length : 8 ≤ content.length
  magic : content.take 4 = storeMagic
  version : (u32At content 4).toInt32 > storeVersion

def StoreRes.Failed : StoreRes → Prop
  | saved ok => ok = false
  | loaded r => r = none
  | loadedDc r => r = none
  | cleared => False

def StoreOp.Writes : StoreOp → Prop
  | save s _ => s.hasAuthKey = true
  | saveDc _ s => s.hasAuthKey = true
  | load => False
  | loadDc _ => False
  | clear => False

section Future

variable {fs : Fs} {content : Bytes}

theorem readFileLocked_future (h : FutureVersion content) : readFileLocked content = none := by
  have hgt := h.version
  refine readFileLocked_eq_none_of_version (fun h1 => ?_) fun h2 => ?_
  · rw [h1] at hgt
    exact absurd hgt (by decide)
  · rw [h2] at hgt
    exact absurd hgt (by decide)

theorem stored_future (h : FutureVersion content) (hr : fs.read .bin = some content) :
    stored fs = StoreFile.empty := by
  rw [stored, hr, Option.getD_some, readFileLocked_future h]
  rfl

theorem read_lockFs_of_some (hr : fs.read .bin = some content) :
    (lockFs fs).read .bin = some content := by
  rw [(read_lockFs fs).1, hr, Option.getD_some]

theorem upsert_without_key (fs : Fs) (req : UpsertReq) (h : req.session.hasAuthKey = false) :
    upsert req fs = (false, fs) := by
  rw [upsert_spec, h]
  rfl

theorem upsert_with_key (h : FutureVersion content) (hr : fs.read .bin = some content)
    (req : UpsertReq) (hkey : req.session.hasAuthKey = true) :
    (upsert req fs).2.read .bin ≠ some content := by
  rw [upsert_spec, if_pos hkey, stored_future h hr]
  rcases hm : req.modify StoreFile.empty with _ | st
  · exact absurd (modify_eq_none.mp hm).2 (by decide)
  · intro heq
    rw [read_replacedFs, Option.some_inj] at heq
    have hv := h.version
    rw [← heq, (header_storeBytes st).2.1] at hv
    exact absurd hv (by decide)

theorem exec_future (h : FutureVersion content) (hr : fs.read .bin = some content) {op : StoreOp}
    (hclear : op ≠ .clear) (hw : ¬ op.Writes) :
    (op.exec fs).2.read .bin = some content ∧ (op.exec fs).1.Failed := by
  cases op with
  | save s dcId =>
    have hs := upsert_without_key fs ⟨dcId, s, true⟩ (Bool.eq_false_iff.mpr hw)
    rw [StoreOp.exec, sessionStoreSave, hs]
    exact ⟨hr, rfl⟩
  | saveDc dcId s =>
    have hs := upsert_without_key fs ⟨dcId, s, false⟩ (Bool.eq_false_iff.mpr hw)
    rw [StoreOp.exec, sessionStoreSaveDc, hs]
    exact ⟨hr, rfl⟩
  | load =>
    refine ⟨?_, ?_⟩
    · rw [StoreOp.exec, sessionStoreLoad, lockAndRead_eq]
      exact read_lockFs_of_some hr
    · show (sessionStoreLoad fs).1 = none
      rw [fst_sessionStoreLoad, stored_future h hr]
      rfl
  | loadDc dcId =>
    refine ⟨?_, ?_⟩
    · rw [StoreOp.exec, sessionStoreLoadDc, lockAndRead_eq]
      exact read_lockFs_of_some hr
    · show (sessionStoreLoadDc dcId fs).1 = none
      rw [fst_sessionStoreLoadDc, stored_future h hr]
      rfl
  | clear => exact absurd rfl hclear

theorem exec_future_writes (h : FutureVersion content) (hr : fs.read .bin = some content)
    {op : StoreOp} (hw : op.Writes) : (op.exec fs).2.read .bin ≠ some content := by
  cases op with
  | save s dcId => exact upsert_with_key h hr ⟨dcId, s, true⟩ hw
  | saveDc dcId s => exact upsert_with_key h hr ⟨dcId, s, false⟩ hw
  | load => exact absurd hw id
  | loadDc dcId => exact absurd hw id
  | clear => exact absurd hw id

end Future

/-- **When the file of a newer client is kept.**  Along a sequence of loads and saves its bytes
never change and every call fails, exactly if no call saves a session that has a key. -/
theorem futureVersion_kept_iff (fs : Fs) (content : Bytes) (hr : fs.read .bin = some content)
    (h : FutureVersion content) (ops : List StoreOp) (hops : ∀ op ∈ ops, op ≠ .clear) :
    (∀ n, (runAll StoreOp.exec (ops.take n) fs).2.read .bin = some content ∧
        ∀ r ∈ (runAll StoreOp.exec (ops.take n) fs).1, r.Failed) ↔
      ∀ op ∈ ops, ¬ op.Writes := by
  induction ops generalizing fs with
  | nil =>
    refine ⟨fun _ op hop => absurd hop not_mem_nil, fun _ n => ?_⟩
    rw [take_nil]
    exact ⟨hr, fun r hr' => absurd hr' not_mem_nil⟩
  | cons op ops ih =>
    rw [forall_mem_cons] at hops
    rw [forall_mem_cons]
    by_cases hw : op.Writes
    · -- the file is already another after the first call
      refine ⟨fun hkept => ?_, fun hno => absurd hw hno.1⟩
      exact absurd (hkept 1).1 (exec_future_writes h hr hw)
    · obtain ⟨hstep, hfail⟩ := exec_future h hr hops.1 hw
      rw [← ih (op.exec fs).2 hstep hops.2]
      constructor
      · intro hkept
        refine ⟨hw, fun n => ⟨(hkept (n + 1)).1, fun r hr' => ?_⟩⟩
        exact (hkept (n + 1)).2 r (mem_cons_of_mem _ hr')
      · rintro ⟨-, hrest⟩ n
        cases n with
        | zero => exact ⟨hr, fun r hr' => absurd hr' not_mem_nil⟩
        | succ n =>
          refine ⟨(hrest n).1, fun r hr' => ?_⟩
          rcases mem_cons.mp hr' with rfl | hr'
          · exact hfail
          · exact (hrest n).2 r hr'

/-! ## A version 3 file -/

def futureFile : Bytes :=
  storeMagic ++ (u32Bytes 3 ++ List.replicate 8 0)

theorem futureVersion_kept_by_loads :
    (runAll StoreOp.exec [.load, .loadDc 2] (InodeFs.single .bin futureFile)).2.read .bin =
      some futureFile := by
  refine ((futureVersion_kept_iff _ futureFile (InodeFs.read_single _ _)
    ⟨by decide, by decide, by decide⟩ [.load, .loadDc 2] ?_).mpr ?_ 2).1
  · intro op hop
    simp only [mem_cons, not_mem_nil, or_false] at hop
    rcases hop with rfl | rfl
    · exact StoreOp.noConfusion
    · exact StoreOp.noConfusion
  · intro op hop
    simp only [mem_cons, not_mem_nil, or_false] at hop
    rcases hop with rfl | rfl <;> exact id

/-- A save over a version 3 file succeeds, and the file is of version 2. -/
theorem futureVersion_overwritten_by_save :
    let x := (StoreOp.save (demoSession 7) 2).exec (InodeFs.single .bin futureFile)
    x.1 = .saved true ∧ x.2.read .bin ≠ some futureFile ∧
      (x.2.read .bin).map (u32At · 4) = some 2 := by
  intro x
  decide +kernel

end TgCli.App
