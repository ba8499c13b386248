import TgCli.App.SessionStore.Calls
import TgCli.Lib.KeyedList
import TgCli.Lib.Machine

/-!
# The session store is a map with a home

What the store is for: a `Vault` remembers at most five sessions by DC, and which DC is home.  The
byte-level calls of one process refine it (`sessionStore_refines_vault`), from no file, from a
version 2 file with distinct DCs and from a version 1 file.
-/

namespace TgCli.App

open List Lib TgCli.Core

/-! ## The abstract store -/

structure Stored where
  serverSalt : UInt64
  sessionId : UInt64
  authKey : AuthKey
  deriving DecidableEq

def Stored.ofSession (s : MtProtoSession) : Stored :=
  ⟨s.serverSalt, s.sessionId, s.authKey⟩

def Stored.session (x : Stored) : MtProtoSession where
  sessionId := x.sessionId
  serverSalt := x.serverSalt
  seqNo := 0
  lastMsgId := 0
  authKey := x.authKey
  hasAuthKey := true

/-- A finite map from DCs to sessions, and the home DC. -/
structure Vault where
  home : Option Int32
  entry : Int32 → Option Stored

inductive StoreOp where
  | save (s : MtProtoSession) (dcId : Int32)
  | saveDc (dcId : Int32) (s : MtProtoSession)
  | load
  | loadDc (dcId : Int32)
  | clear
  deriving DecidableEq

inductive StoreRes where
  | saved (ok : Bool)
  | loaded (r : Option (MtProtoSession × Int32))
  | loadedDc (r : Option MtProtoSession)
  | cleared
  deriving DecidableEq

/-- A call that the store is meant for: a session with a key, a DC that is not zero. -/
def StoreOp.Valid : StoreOp → Prop
  | save s dcId => s.hasAuthKey = true ∧ dcId ≠ 0
  | saveDc dcId s => s.hasAuthKey = true ∧ dcId ≠ 0
  | load => True
  | loadDc _ => True
  | clear => True

namespace Vault

def empty : Vault :=
  ⟨none, fun _ => none⟩

def Full (v : Vault) (dcId : Int32) : Prop :=
  v.entry dcId = none ∧ sessionStoreMaxDcs ≤ {d | v.entry d ≠ none}.ncard

def put (v : Vault) (dcId : Int32) (s : MtProtoSession) (home : Int32) : Vault :=
  ⟨some home, Function.update v.entry dcId (some (Stored.ofSession s))⟩

open Classical in
noncomputable def exec (op : StoreOp) (v : Vault) : StoreRes × Vault :=
  match op with
  | .save s dcId =>
    if v.Full dcId then (.saved false, v) else (.saved true, v.put dcId s dcId)
  | .saveDc dcId s =>
    if v.Full dcId then (.saved false, v) else (.saved true, v.put dcId s (v.home.getD dcId))
  | .load => (.loaded (v.home.bind fun h => (v.entry h).map fun x => (x.session, h)), v)
  | .loadDc dcId => (.loadedDc ((v.entry dcId).map Stored.session), v)
  | .clear => (.cleared, empty)

end Vault

def StoreOp.exec : StoreOp → Fs → StoreRes × Fs
  | save s dcId, fs => let x := sessionStoreSave s dcId fs; (.saved x.1, x.2)
  | saveDc dcId s, fs => let x := sessionStoreSaveDc dcId s fs; (.saved x.1, x.2)
  | load, fs => let x := sessionStoreLoad fs; (.loaded x.1, x.2)
  | loadDc dcId, fs => let x := sessionStoreLoadDc dcId fs; (.loadedDc x.1, x.2)
  | clear, fs => (.cleared, sessionStoreClear fs)

/-! ## What a store file stands for -/

def StoreEntry.stored (e : StoreEntry) : Stored :=
  ⟨e.serverSalt, e.sessionId, e.authKey⟩

def StoreFile.Distinct (st : StoreFile) : Prop :=
  (st.entries.map StoreEntry.dcId).Nodup

/-- The vault that a store file stands for; a home of zero is none. -/
def StoreFile.vault (st : StoreFile) : Vault where
  home := if st.homeDcId = 0 then none else some st.homeDcId
  entry d := (st.lookup d).map StoreEntry.stored

theorem StoreFile.entry_vault (st : StoreFile) (d : Int32) :
    st.vault.entry d = (st.lookup d).map StoreEntry.stored :=
  rfl

/-- The file system holds the vault. -/
def Represents (v : Vault) (fs : Fs) : Prop :=
  (stored fs).Distinct ∧ v = (stored fs).vault

theorem StoreFile.lookup_eq (st : StoreFile) (d : Int32) :
    st.lookup d = lookupKey StoreEntry.dcId st.entries d :=
  find?_eq_bind_findIdx?_getElem?.symm

theorem vault_empty : StoreFile.empty.vault = Vault.empty :=
  rfl

/-! ## Saving -/

section Modify

variable {req : UpsertReq} {st st' : StoreFile}

/-- A save is refused exactly when the DC is new and five others are stored. -/
theorem modify_eq_none :
    req.modify st = none ↔
      st.lookup req.dcId = none ∧ sessionStoreMaxDcs ≤ st.entries.length := by
  rw [UpsertReq.modify, StoreFile.lookup]
  rcases hf : findEntry st req.dcId with _ | i
  · by_cases hlen : st.entries.length ≥ sessionStoreMaxDcs
    · simp [hlen]
    · simp [hlen]
  · have hi : i < st.entries.length := by
      rw [findEntry, findIdx?_eq_some_iff_findIdx_eq] at hf
      exact hf.1
    simp [getElem?_eq_getElem hi]

theorem modify_eq_some (h : req.modify st = some st') :
    st'.entries = upsertKey StoreEntry.dcId st.entries (populateEntry req.dcId req.session) ∧
      st'.homeDcId = req.home st := by
  have hkey : (populateEntry req.dcId req.session).dcId = req.dcId := rfl
  simp only [UpsertReq.modify, findEntry] at h
  simp only [upsertKey, hkey]
  rcases hf : st.entries.findIdx? (fun e => decide (e.dcId = req.dcId)) with _ | i
  · simp only [hf] at h ⊢
    split_ifs at h
    rw [← Option.some.inj h]
    exact ⟨rfl, rfl⟩
  · simp only [hf] at h ⊢
    rw [← Option.some.inj h]
    exact ⟨rfl, rfl⟩

theorem lookup_modify (h : req.modify st = some st') (d : Int32) :
    st'.lookup d =
      if d = req.dcId then some (populateEntry req.dcId req.session) else st.lookup d := by
  rw [StoreFile.lookup_eq, StoreFile.lookup_eq, (modify_eq_some h).1, lookupKey_upsertKey]
  rfl

theorem distinct_modify (h : req.modify st = some st') (hd : st.Distinct) : st'.Distinct := by
  rw [StoreFile.Distinct, (modify_eq_some h).1]
  exact nodup_upsertKey StoreEntry.dcId hd _

theorem vault_modify (h : req.modify st = some st') (hdc : req.dcId ≠ 0) :
    st'.vault = st.vault.put req.dcId req.session
      (if req.setHome then req.dcId else st.vault.home.getD req.dcId) := by
  have hhome := (modify_eq_some h).2
  rw [StoreFile.vault, Vault.put, Vault.mk.injEq]
  refine ⟨?_, funext fun d => ?_⟩
  · rw [hhome, UpsertReq.home, StoreFile.vault]
    cases req.setHome <;> by_cases h0 : st.homeDcId = 0 <;> simp [h0, hdc]
  · rw [lookup_modify h]
    by_cases hd : d = req.dcId
    · rw [if_pos hd, hd, Function.update_self]
      rfl
    · rw [if_neg hd, Function.update_of_ne hd]
      rfl

theorem full_iff_modify (hd : st.Distinct) :
    st.vault.Full req.dcId ↔ req.modify st = none := by
  have hset : {d | st.vault.entry d ≠ none} =
      {d | lookupKey StoreEntry.dcId st.entries d ≠ none} := by
    ext d
    rw [Set.mem_ofPred_eq, Set.mem_ofPred_eq, st.entry_vault, StoreFile.lookup_eq, ne_eq,
      Option.map_eq_none_iff]
  rw [modify_eq_none, Vault.Full, hset, ncard_lookupKey StoreEntry.dcId hd, st.entry_vault,
    Option.map_eq_none_iff]

end Modify

/-! ## One call -/

section Step

variable {v : Vault} {fs : Fs}

theorem stored_unlink : stored (sessionStoreClear fs) = StoreFile.empty := by
  have hnone : (sessionStoreClear fs).read .bin = none := by
    rw [InodeFs.read, sessionStoreClear, InodeFs.dir_unlink_self, Option.map_none]
  rw [stored, hnone]
  rfl

theorem lockAndRead_eq (fs : Fs) :
    lockAndRead fs = (readFileLocked ((fs.read .bin).getD []), lockFs fs) := by
  have h := (read_lockFs fs).1
  rw [lockFs] at h
  rw [lockAndRead, h]
  rfl

theorem fst_sessionStoreLoadDc (fs : Fs) (d : Int32) :
    (sessionStoreLoadDc d fs).1 = ((stored fs).vault.entry d).map Stored.session := by
  rw [sessionStoreLoadDc, lockAndRead_eq, stored, StoreFile.vault]
  rcases readFileLocked ((fs.read .bin).getD []) with _ | st
  · rfl
  · simp only [Option.bind_eq_bind, Option.bind_some, Option.getD_some, Option.map_map]
    rcases st.lookup d with _ | e <;> rfl

theorem fst_sessionStoreLoad (fs : Fs) :
    (sessionStoreLoad fs).1 = (stored fs).vault.home.bind fun h =>
      ((stored fs).vault.entry h).map fun x => (x.session, h) := by
  rw [sessionStoreLoad, lockAndRead_eq, stored, StoreFile.vault]
  rcases readFileLocked ((fs.read .bin).getD []) with _ | st
  · rfl
  · simp only [Option.bind_eq_bind, Option.bind_some, Option.getD_some]
    by_cases h0 : st.homeDcId = 0
    · simp [h0]
    · by_cases hlen : st.entries = []
      · have hl : st.lookup st.homeDcId = none := by
          rw [StoreFile.lookup_eq, hlen]
          rfl
        simp [h0, hlen, hl]
      · simp only [length_eq_zero_iff, hlen, h0, or_self, if_false, Option.bind_some,
          Option.map_map]
        rcases st.lookup st.homeDcId with _ | e <;> rfl

theorem represents_lockFs (h : Represents v fs) {fs' : Fs} (hfs : fs' = lockFs fs) :
    Represents v fs' := by
  rw [Represents, hfs, stored_lockFs]
  exact h

theorem upsert_refines (h : Represents v fs) (req : UpsertReq)
    (hkey : req.session.hasAuthKey = true) (hdc : req.dcId ≠ 0) :
    (v.Full req.dcId ∧ (upsert req fs).1 = false ∧ Represents v (upsert req fs).2) ∨
      (¬ v.Full req.dcId ∧ (upsert req fs).1 = true ∧
        Represents (v.put req.dcId req.session
          (if req.setHome then req.dcId else v.home.getD req.dcId)) (upsert req fs).2) := by
  obtain ⟨hd, rfl⟩ := h
  rw [upsert_spec, if_pos hkey]
  rcases hm : req.modify (stored fs) with _ | st
  · refine Or.inl ⟨(full_iff_modify hd).mpr hm, rfl, ?_⟩
    rw [Represents, stored_lockFs]
    exact ⟨hd, rfl⟩
  · refine Or.inr ⟨fun hfull => ?_, rfl, ?_⟩
    · rw [(full_iff_modify hd).mp hfull] at hm
      exact absurd hm (by simp)
    · rw [Represents, stored_replacedFs]
      exact ⟨distinct_modify hm hd, (vault_modify hm hdc).symm⟩

/-- **One call refines one call of the vault.** -/
theorem exec_refines (op : StoreOp) (fs : Fs) (v : Vault) (hop : op.Valid) (h : Represents v fs) :
    (op.exec fs).1 = (Vault.exec op v).1 ∧ Represents (Vault.exec op v).2 (op.exec fs).2 := by
  cases op with
  | save s dcId =>
    rcases upsert_refines h ⟨dcId, s, true⟩ hop.1 hop.2 with ⟨hf, hrc, hr⟩ | ⟨hf, hrc, hr⟩
    · rw [Vault.exec, if_pos hf]
      exact ⟨congrArg StoreRes.saved hrc, hr⟩
    · rw [Vault.exec, if_neg hf]
      exact ⟨congrArg StoreRes.saved hrc, hr⟩
  | saveDc dcId s =>
    rcases upsert_refines h ⟨dcId, s, false⟩ hop.1 hop.2 with ⟨hf, hrc, hr⟩ | ⟨hf, hrc, hr⟩
    · rw [Vault.exec, if_pos hf]
      exact ⟨congrArg StoreRes.saved hrc, hr⟩
    · rw [Vault.exec, if_neg hf]
      exact ⟨congrArg StoreRes.saved hrc, hr⟩
  | load =>
    obtain ⟨hd, rfl⟩ := h
    refine ⟨congrArg StoreRes.loaded (fst_sessionStoreLoad fs), ?_⟩
    exact represents_lockFs ⟨hd, rfl⟩ (by rw [StoreOp.exec, sessionStoreLoad, lockAndRead_eq])
  | loadDc dcId =>
    obtain ⟨hd, rfl⟩ := h
    refine ⟨congrArg StoreRes.loadedDc (fst_sessionStoreLoadDc fs dcId), ?_⟩
    exact represents_lockFs ⟨hd, rfl⟩ (by rw [StoreOp.exec, sessionStoreLoadDc, lockAndRead_eq])
  | clear =>
    refine ⟨rfl, ?_⟩
    show Represents Vault.empty (sessionStoreClear fs)
    rw [Represents, stored_unlink]
    exact ⟨nodup_nil, vault_empty.symm⟩

end Step

/-! ## All runs -/

/-- The files a client may start from, with the vault they hold: none, a version 1 file, a version 2
file with distinct DCs. -/
inductive Start (fs : Fs) : Vault → Prop
  | absent (h : fs.read .bin = none) : Start fs Vault.empty
  | v1 (e : StoreEntry) (rest : Bytes) (h : fs.read .bin = some (storeV1Bytes e ++ rest))
      (hdc : e.dcId ≠ 0) :
      Start fs ⟨some e.dcId, fun d => if d = e.dcId then some e.stored else none⟩
  | v2 (st : StoreFile) (rest : Bytes) (h : fs.read .bin = some (storeBytes st ++ rest))
      (distinct : st.Distinct) : Start fs st.vault

theorem represents_of_start {fs : Fs} {v : Vault} (h : Start fs v) : Represents v fs := by
  cases h with
  | absent h =>
    have hs : stored fs = StoreFile.empty := by
      rw [stored, h]
      rfl
    rw [Represents, hs]
    exact ⟨nodup_nil, vault_empty.symm⟩
  | v1 e rest h hdc =>
    rw [Represents, stored, h, Option.getD_some, readFileLocked_v1, Option.getD_some]
    refine ⟨nodup_singleton _, ?_⟩
    rw [StoreFile.vault, Vault.mk.injEq]
    refine ⟨(if_neg hdc).symm, funext fun d => ?_⟩
    rw [StoreFile.lookup_eq, lookupKey_cons]
    by_cases hd : d = e.dcId
    · rw [if_pos hd, if_pos hd.symm, Option.map_some]
    · rw [if_neg hd, if_neg (Ne.symm hd), lookupKey_nil, Option.map_none]
  | v2 st rest h distinct =>
    rw [Represents, stored, h, Option.getD_some, readFileLocked_append, Option.getD_some]
    exact ⟨distinct, rfl⟩

theorem upsert_frame {v : Vault} {fs : Fs} (h : Represents v fs) {req : UpsertReq}
    (hkey : req.session.hasAuthKey = true) :
    (∀ d, d ≠ req.dcId →
      (sessionStoreLoadDc d (upsert req fs).2).1 = (sessionStoreLoadDc d fs).1) ∧
    (v.Full req.dcId → (upsert req fs).1 = false ∧ (upsert req fs).2.read .bin = fs.read .bin) := by
  obtain ⟨hd, rfl⟩ := h
  rw [upsert_spec, if_pos hkey]
  rcases hm : req.modify (stored fs) with _ | st
  · refine ⟨fun d _ => ?_, fun _ => ⟨rfl, ?_⟩⟩
    · rw [fst_sessionStoreLoadDc, fst_sessionStoreLoadDc, stored_lockFs]
    · -- five entries are stored, so the file was there and is not created
      have hlen := (modify_eq_none.mp hm).2
      rcases hr : fs.read .bin with _ | content
      · rw [stored, hr] at hlen
        exact absurd hlen (by decide)
      · rw [(read_lockFs fs).1, hr, Option.getD_some]
  · refine ⟨fun d hne => ?_, fun hfull => ?_⟩
    · rw [fst_sessionStoreLoadDc, fst_sessionStoreLoadDc, stored_replacedFs, StoreFile.entry_vault,
        StoreFile.entry_vault, lookup_modify hm, if_neg hne]
    · rw [(full_iff_modify hd).mp hfull] at hm
      exact absurd hm (by simp)

/-- **The session store is a map with a home.**  Along every sequence of calls from every start, the
calls return what the vault's calls return; the file holds the vault, with distinct DCs and at most
five; a further save leaves what other DCs load; and a save of a sixth DC fails and leaves the bytes
of the file. -/
theorem sessionStore_refines_vault (fs : Fs) (v : Vault) (hstart : Start fs v)
    (ops : List StoreOp) (hops : ∀ op ∈ ops, op.Valid) :
    let run := runAll StoreOp.exec ops fs
    let spec := runAll Vault.exec ops v
    run.1 = spec.1 ∧
      (stored run.2).vault = spec.2 ∧ (stored run.2).Distinct ∧
      (stored run.2).entries.length ≤ 5 ∧
      ∀ req : UpsertReq, req.session.hasAuthKey = true →
        (∀ d, d ≠ req.dcId →
          (sessionStoreLoadDc d (upsert req run.2).2).1 = (sessionStoreLoadDc d run.2).1) ∧
        (spec.2.Full req.dcId →
          (upsert req run.2).1 = false ∧ (upsert req run.2).2.read .bin = run.2.read .bin) := by
  obtain ⟨hres, hrep⟩ := runAll_simulates exec_refines hops (represents_of_start hstart)
  exact ⟨hres, hrep.2.symm, hrep.1, (stored _).count_le, fun req hkey => upsert_frame hrep hkey⟩

/-! ## A run from a version 1 file -/

def demoSession (salt : UInt64) : MtProtoSession :=
  { mtprotoSessionInit salt with serverSalt := salt, hasAuthKey := true }

def demoEntry : StoreEntry :=
  populateEntry 2 (demoSession 7)

/-- The legacy file is loaded, a session for a second DC is stored beside it, and a third DC becomes
home. -/
def demoOps : List StoreOp :=
  [.load, .saveDc 4 (demoSession 8), .save (demoSession 9) 5, .load, .loadDc 2]

theorem sessionStore_refines_vault_v1 :
    (runAll StoreOp.exec demoOps (InodeFs.single .bin (storeV1Bytes demoEntry ++ []))).1 =
      (runAll Vault.exec demoOps
        ⟨some 2, fun d => if d = 2 then some demoEntry.stored else none⟩).1 := by
  refine (sessionStore_refines_vault _ _
    (.v1 demoEntry [] (InodeFs.read_single _ _) (by decide)) demoOps ?_).1
  intro op hop
  simp only [demoOps, mem_cons, not_mem_nil, or_false] at hop
  rcases hop with rfl | rfl | rfl | rfl | rfl
  · trivial
  · exact ⟨rfl, by decide⟩
  · exact ⟨rfl, by decide⟩
  · trivial
  · trivial

end TgCli.App
