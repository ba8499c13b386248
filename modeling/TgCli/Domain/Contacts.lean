import TgCli.Core.TlSkip.UserLayout
import TgCli.Domain.Dialogs

/-!
# `domain/read/contacts.c`: the contacts and their names

`contacts.getContacts` answers with two vectors.  The first has the contacts, each with the id of
its user.  The second has the users, with their names.  The first loop stops when the caller's array
is full, wherever the cursor is then; the join goes on from there as if the vector had come to its
end.

So the join takes place only if the contacts fit into the array.  Otherwise the word where it looks
for the second vector is the half of an id, and even if this half looks like a vector, the word
behind the id is no user (`joinContacts_at_contact`).  When it does take place, it completes the
first contact with the id of a user and no other one.  `listed_iff` says for which answers this is
enough.
-/

namespace TgCli.Domain

open List Lib TgCli.Core Walk Infrastructure

def crcContactsGetContacts : UInt32 := 0x5dd69e12
def crcContact : UInt32 := 0x145ade0b
def tlContactsContacts : UInt32 := 0xeae87e42
def tlContactsContactsNotModified : UInt32 := 0xb74ba9d2

def contactsMax : Int32 := 512

structure ContactEntry where
  userId : Int64
  accessHash : Int64
  isMutual : Bool
  name : Bytes
  username : Bytes
  deriving DecidableEq

/-! ## The call -/

/-- The loop over the contacts, with the turns and the places that are left. -/
def readContacts : ℕ → ℕ → TlReader → List ContactEntry × TlReader
  | 0, _, r => ([], r)
  | _ + 1, 0, r => ([], r)
  | n + 1, room + 1, r =>
    if !tlReaderOk r then ([], r) else
    let ccrc := tlReadUint32 r
    if ccrc.1 ≠ crcContact then ([], ccrc.2) else
    let userId := tlReadInt64 ccrc.2
    let b := tlReadBool userId.2
    let rest := readContacts n room b.2
    (⟨userId.1, 0, decide (b.1 = 1), [], []⟩ :: rest.1, rest.2)

/-- What a user gives to a contact, in `name[128]` and `username[64]`. -/
def ContactEntry.attach (e : ContactEntry) (us : UserSummary) : ContactEntry :=
  { e with accessHash := us.accessHash, name := us.name.take 127, username := us.username.take 63 }

def attachUser (us : UserSummary) : List ContactEntry → List ContactEntry
  | [] => []
  | e :: es => if e.userId = us.id then e.attach us :: es else e :: attachUser us es

def joinUsers : ℕ → TlReader → List ContactEntry → List ContactEntry
  | 0, _, out => out
  | n + 1, r, out =>
    if !tlReaderOk r then out else
    match extractUserObject r with
    | none => out
    | some (us, r) => joinUsers n r (attachUser us out)

/-- The part of `domain_get_contacts` behind the contacts. -/
def joinContacts (r : TlReader) (out : List ContactEntry) : List ContactEntry :=
  let savedCount := tlReadInt32 r
  let uvec := tlReadUint32 savedCount.2
  if uvec.1 = tlVector then
    let ucount := tlReadUint32 uvec.2
    joinUsers ucount.1.toNat ucount.2 out
  else out

/-- The part of `domain_get_contacts` behind `api_call`. -/
def readContactsReply (maxEntries : ℕ) (resp : Bytes) : Option (List ContactEntry) :=
  if resp.length < 4 then none else
  let top := tlReadUint32 (tlReaderInit resp)
  if top.1 = crcRpcError then none
  else if top.1 = tlContactsContactsNotModified then some []
  else if top.1 ≠ tlContactsContacts then none
  else
    let vec := tlReadUint32 top.2
    if vec.1 ≠ tlVector then none else
    let count := tlReadUint32 vec.2
    let contacts := readContacts count.1.toNat maxEntries count.2
    some (joinContacts contacts.2 contacts.1)

/-- `domain_get_contacts`, with `none` for -1.  `api` is what `api_call` returns for a query and the
size of the buffer. -/
def domainGetContacts (api : Bytes → ℕ → Option Bytes) (maxEntries : Int32) :
    Option (List ContactEntry) :=
  if maxEntries ≤ 0 then none else
  let maxEntries := if maxEntries > contactsMax then contactsMax else maxEntries
  let query := tlWriteInt64 (tlWriteUint32 [] crcContactsGetContacts) 0
  if query.length > 32 then none else
  (api query 65536).bind (readContactsReply maxEntries.toInt.toNat)

/-! ## Answers -/

structure ContactRecord where
  userId : Int64
  isMutual : Bool

namespace ContactRecord

def bytes (c : ContactRecord) : Bytes :=
  u32Bytes crcContact ++ (u64Bytes c.userId.toUInt64 ++
    u32Bytes (if c.isMutual then tlBoolTrue else tlBoolFalse))

def entry (c : ContactRecord) : ContactEntry :=
  ⟨c.userId, 0, c.isMutual, [], []⟩

end ContactRecord

structure ContactsReply where
  contacts : List ContactRecord
  savedCount : Int32
  users : List UserObject
  few : contacts.length < 2 ^ 32
  fewUsers : users.length < 2 ^ 32

namespace ContactsReply

variable (p : ContactsReply)

def tail : Bytes :=
  u32Bytes p.savedCount.toUInt32 ++ (u32Bytes tlVector ++
    (u32Bytes (UInt32.ofNat p.users.length) ++ p.users.flatMap UserObject.bytes))

def bytes : Bytes :=
  u32Bytes tlContactsContacts ++ (u32Bytes tlVector ++
    (u32Bytes (UInt32.ofNat p.contacts.length) ++
      (p.contacts.flatMap ContactRecord.bytes ++ p.tail)))

/-- `api_call` with this answer: it is handed on if the buffer holds it. -/
def api : Bytes → ℕ → Option Bytes :=
  fun _ maxLen => if p.bytes.length ≤ maxLen then some p.bytes else none

end ContactsReply

/-! ## The loops -/

variable {r : TlReader}

theorem u64Bytes_eq_words (x : UInt64) : ∃ lo hi, u64Bytes x = u32Bytes lo ++ u32Bytes hi := by
  have hlen := length_u64Bytes x
  have hlo := u32Bytes_append_drop (b := u64Bytes x) (by omega)
  have hhi := u32Bytes_append_drop (b := (u64Bytes x).drop 4) (by rw [length_drop]; omega)
  rw [drop_drop, drop_eq_nil_of_le (by omega : (u64Bytes x).length ≤ 4 + 4),
    append_nil] at hhi
  exact ⟨u32At (u64Bytes x) 0, u32At ((u64Bytes x).drop 4) 0, by rw [hhi]; exact hlo.symm⟩

theorem tlReadBool_of_rest {t : Bytes} {v : Bool}
    (h : r.rest = u32Bytes (if v then tlBoolTrue else tlBoolFalse) ++ t) :
    decide ((tlReadBool r).1 = 1) = v ∧ (tlReadBool r).2.rest = t := by
  obtain ⟨h1, h2⟩ := tlReadUint32_of_rest h
  refine ⟨?_, h2⟩
  show decide ((if (tlReadUint32 r).1 = tlBoolTrue then (1 : ℤ) else
    if (tlReadUint32 r).1 = tlBoolFalse then 0 else -1) = 1) = v
  rw [h1]
  cases v <;> rfl

theorem readContacts_of_rest (l : List ContactRecord) (room : ℕ) {t : Bytes}
    (h : r.rest = l.flatMap ContactRecord.bytes ++ t) :
    (readContacts l.length room r).1 = (l.take room).map ContactRecord.entry ∧
      (readContacts l.length room r).2.rest = (l.drop room).flatMap ContactRecord.bytes ++ t := by
  induction l generalizing room r with
  | nil =>
    rw [take_nil, drop_nil]
    exact ⟨rfl, h⟩
  | cons c l ih =>
    cases room with
    | zero => exact ⟨rfl, h⟩
    | succ room =>
      rw [flatMap_cons, ContactRecord.bytes, append_assoc, append_assoc,
        append_assoc] at h
      have hok := tlReaderOk_of_rest h (ne_nil_of_length_pos (by rw [length_u32Bytes]; decide))
      obtain ⟨hcrc, h⟩ := tlReadUint32_of_rest h
      obtain ⟨hid, h⟩ := tlReadInt64_of_rest h
      obtain ⟨hmutual, h⟩ := tlReadBool_of_rest h
      obtain ⟨hout, hrest⟩ := ih room h
      rw [length_cons, readContacts, if_neg (by rw [hok]; decide)]
      dsimp only
      rw [if_neg (not_not.mpr hcrc), hid, hmutual, hout]
      exact ⟨rfl, hrest⟩

theorem joinUsers_of_rest (l : List UserObject) (out : List ContactEntry) {t : Bytes}
    (h : r.rest = l.flatMap UserObject.bytes ++ t) :
    joinUsers l.length r out = l.foldl (fun out u => attachUser u.summary out) out := by
  induction l generalizing out r with
  | nil => rfl
  | cons u l ih =>
    rw [flatMap_cons, append_assoc] at h
    have hok := tlReaderOk_of_rest h u.bytes_ne_nil
    obtain ⟨st, hrun, hrest, hout⟩ := u.reads_extract ⟨0, 0, false, [], []⟩
      ⟨r, some ⟨0, 0, false, [], []⟩⟩ _ h rfl
    obtain ⟨r', o⟩ := st
    obtain rfl : o = some u.summary := hout
    have hextract : extractUserObject r = some (u.summary, r') := by
      rw [extractUserObject, hrun]
    rw [length_cons, joinUsers, if_neg (by rw [hok]; decide), hextract, foldl_cons]
    exact ih _ (hrest rfl)

theorem joinUsers_of_foreign {crc : UInt32} (hempty : crc ≠ tlUserEmpty)
    (huser : ¬ (crc = tlUser ∨ crc = tlUser2)) (n : ℕ) (out : List ContactEntry)
    {t : Bytes} (h : r.rest = u32Bytes crc ++ t) : joinUsers n r out = out := by
  have hcrc : Walk.Reads (do enter 4; u32) (u32Bytes crc) crc :=
    Walk.Reads.enter (Walk.Reads.u32 crc) (length_u32Bytes _).ge (by decide)
  cases n with
  | zero => rfl
  | succ n =>
    have hok := tlReaderOk_of_rest h (ne_nil_of_length_pos (by rw [length_u32Bytes]; decide))
    obtain ⟨r', hread, -⟩ := hcrc r t h
    have hrun : extractUserInner.run ⟨r, some ⟨0, 0, false, [], []⟩⟩ =
        (none, ⟨r', some ⟨0, 0, false, [], []⟩⟩) := by
      have hset : Ext.set (fun _ => (⟨0, 0, false, [], []⟩ : UserSummary))
        ⟨r, some ⟨0, 0, false, [], []⟩⟩ = (some (), ⟨r, some ⟨0, 0, false, [], []⟩⟩) := rfl
      refine (Prog.bind_of_some hset).trans ?_
      refine (Prog.bind_of_some (Ext.walk_of_some hread _)).trans ?_
      rw [if_neg hempty, if_neg huser]
      rfl
    have hextract : extractUserObject r = none := by rw [extractUserObject, hrun]
    rw [joinUsers, if_neg (by rw [hok]; decide), hextract]

/-! ## The join -/

section Join

variable (users : List UserSummary)

theorem foldl_attachUser_cons (e : ContactEntry) (es : List ContactEntry) :
    users.foldl (fun out u => attachUser u out) (e :: es) =
      (users.filter fun u => u.id = e.userId).foldl ContactEntry.attach e ::
        (users.filter fun u => u.id ≠ e.userId).foldl (fun out u => attachUser u out) es := by
  induction users generalizing e es with
  | nil => rfl
  | cons u users ih =>
    rw [foldl_cons, attachUser]
    by_cases h : e.userId = u.id
    · have hid : (e.attach u).userId = e.userId := rfl
      rw [if_pos h, ih, hid]
      simp [h]
    · rw [if_neg h, ih]
      simp [Ne.symm h]

theorem foldl_attach (e : ContactEntry) :
    users.foldl ContactEntry.attach e = users.getLast?.elim e e.attach := by
  induction users generalizing e with
  | nil => rfl
  | cons u users ih =>
    rw [foldl_cons, ih, getLast?_cons]
    cases users.getLast? <;> rfl

/-- What a contact becomes that stands behind the contacts `before`: if its id comes before, it is
left alone. -/
def joinedEntry (before : List ContactEntry) (e : ContactEntry) : ContactEntry :=
  if e.userId ∈ before.map ContactEntry.userId then e
  else (users.filter fun u => u.id = e.userId).getLast?.elim e e.attach

theorem joinedEntry_cons (b : ContactEntry) (before : List ContactEntry) (e : ContactEntry) :
    joinedEntry users (b :: before) e =
      joinedEntry (users.filter fun u => u.id ≠ b.userId) before e := by
  unfold joinedEntry
  rw [map_cons, filter_filter]
  by_cases hb : e.userId = b.userId
  · have hnone :
        (users.filter fun u => decide (u.id = e.userId) && decide (u.id ≠ b.userId)) = [] := by
      simp [hb]
    rw [if_pos (by rw [hb]; exact mem_cons_self), hnone, getLast?_nil, Option.elim_none,
      ite_self]
  · have hsame : (fun u : UserSummary => decide (u.id = e.userId) && decide (u.id ≠ b.userId)) =
        fun u => decide (u.id = e.userId) := by
      funext u
      by_cases hu : u.id = e.userId
      · simp [hu, hb]
      · simp [hu]
    rw [hsame]
    simp [hb]

theorem length_attachUser (us : UserSummary) (out : List ContactEntry) :
    (attachUser us out).length = out.length := by
  induction out with
  | nil => rfl
  | cons e out ih =>
    rw [attachUser]
    split_ifs
    · rfl
    · rw [length_cons, ih, length_cons]

theorem length_foldl_attachUser (out : List ContactEntry) :
    (users.foldl (fun out u => attachUser u out) out).length = out.length := by
  induction users generalizing out with
  | nil => rfl
  | cons u users ih => rw [foldl_cons, ih, length_attachUser]

theorem foldl_attachUser_nil : users.foldl (fun out u => attachUser u out) [] = [] := by
  induction users with
  | nil => rfl
  | cons u users ih => exact ih

/-- **The join, contact by contact.** -/
theorem getElem?_foldl_attachUser (out : List ContactEntry) (i : ℕ) :
    (users.foldl (fun out u => attachUser u out) out)[i]? =
      out[i]?.map (joinedEntry users (out.take i)) := by
  induction out generalizing users i with
  | nil =>
    rw [foldl_attachUser_nil]
    rfl
  | cons e out ih =>
    rw [foldl_attachUser_cons]
    cases i with
    | zero =>
      rw [getElem?_cons_zero, getElem?_cons_zero, Option.map_some, foldl_attach]
      rfl
    | succ i =>
      rw [getElem?_cons_succ, getElem?_cons_succ, ih, take_succ_cons]
      congr 1
      funext x
      exact (joinedEntry_cons users e _ x).symm

end Join

/-! ## What a call returns -/

namespace ContactsReply

variable (p : ContactsReply)

theorem joinContacts_at_tail (out : List ContactEntry) {r : TlReader} (h : r.rest = p.tail) :
    joinContacts r out =
      (p.users.map UserObject.summary).foldl (fun out u => attachUser u out) out := by
  obtain ⟨-, h⟩ := tlReadInt32_of_rest h
  obtain ⟨hvec, h⟩ := tlReadUint32_of_rest h
  obtain ⟨hcount, h⟩ := tlReadUint32_of_rest h
  rw [joinContacts]
  dsimp only
  rw [if_pos hvec, hcount, UInt32.toNat_ofNat_of_lt' p.fewUsers, foldl_map]
  exact joinUsers_of_rest p.users out (h.trans (append_nil _).symm)

theorem joinContacts_at_contact (c : ContactRecord) (out : List ContactEntry) {r : TlReader}
    {t : Bytes} (h : r.rest = c.bytes ++ t) : joinContacts r out = out := by
  -- the id is taken for the vector of users and their number
  obtain ⟨lo, hi, hid⟩ := u64Bytes_eq_words c.userId.toUInt64
  rw [ContactRecord.bytes, hid, append_assoc, append_assoc, append_assoc] at h
  have hcrc : u32Bytes crcContact = u32Bytes (crcContact.toInt32).toUInt32 := rfl
  rw [hcrc] at h
  obtain ⟨-, h⟩ := tlReadInt32_of_rest h
  obtain ⟨-, h⟩ := tlReadUint32_of_rest h
  obtain ⟨-, h⟩ := tlReadUint32_of_rest h
  rw [joinContacts]
  split_ifs
  · refine joinUsers_of_foreign ?_ ?_ _ out h
    · cases c.isMutual <;> decide
    · cases c.isMutual <;> decide
  · rfl

def returned (room : ℕ) : List ContactEntry :=
  if p.contacts.length ≤ room then
    (p.users.map UserObject.summary).foldl (fun out u => attachUser u out)
      (p.contacts.map ContactRecord.entry)
  else (p.contacts.take room).map ContactRecord.entry

theorem readContactsReply_bytes (room : ℕ) :
    readContactsReply room p.bytes = some (p.returned room) := by
  have h : (tlReaderInit p.bytes).rest = p.bytes := rest_tlReaderInit _
  have hlen : ¬ p.bytes.length < 4 := by
    rw [bytes, length_append, length_u32Bytes]
    omega
  obtain ⟨htop, h⟩ := tlReadUint32_of_rest h
  obtain ⟨hvec, h⟩ := tlReadUint32_of_rest h
  obtain ⟨hcount, h⟩ := tlReadUint32_of_rest h
  obtain ⟨hout, hrest⟩ := readContacts_of_rest p.contacts room h
  rw [readContactsReply, if_neg hlen]
  dsimp only
  rw [htop, if_neg (by decide), if_neg (by decide), if_neg (by decide), if_neg (not_not.mpr hvec),
    hcount, UInt32.toNat_ofNat_of_lt' p.few, hout]
  unfold returned
  congr 1
  split_ifs with hroom
  · rw [drop_eq_nil_of_le hroom, flatMap_nil, nil_append] at hrest
    rw [p.joinContacts_at_tail _ hrest, take_of_length_le hroom]
  · rcases hdrop : p.contacts.drop room with _ | ⟨c, cs⟩
    · rw [drop_eq_nil_iff] at hdrop
      exact absurd hdrop hroom
    · rw [hdrop, flatMap_cons, append_assoc] at hrest
      exact joinContacts_at_contact c _ hrest

end ContactsReply

/-! ## The contacts and the users -/

def ContactEntry.HasDataOf (e : ContactEntry) (u : UserObject) : Prop :=
  e.accessHash = u.summary.accessHash ∧ e.name = u.summary.name ∧ e.username = u.summary.username

/-- There is nothing to show of the user, and no `access_hash`. -/
def UserObject.IsBlank (u : UserObject) : Prop :=
  u.summary.accessHash = 0 ∧ u.summary.name = [] ∧ u.summary.username = []

namespace ContactsReply

variable (p : ContactsReply)

/-- The entry is the contact, with the data of a user that has its id; without data only if there is
no such user. -/
def Describes (e : ContactEntry) (c : ContactRecord) : Prop :=
  e.userId = c.userId ∧ e.isMutual = c.isMutual ∧
    ((∃ u ∈ p.users, u.summary.id = c.userId ∧ e.HasDataOf u) ∨
      (∀ u ∈ p.users, u.summary.id ≠ c.userId) ∧ e = c.entry)

/-- The call returns the first contacts, as many as are asked for, each with its data. -/
def Listed (maxEntries : Int32) : Prop :=
  ∃ out, domainGetContacts p.api maxEntries = some out ∧
    out.length = min p.contacts.length maxEntries.toInt.toNat ∧
    ∀ (i : ℕ) e c, out[i]? = some e → p.contacts[i]? = some c → p.Describes e c

def Unnamed (id : Int64) : Prop :=
  ∀ u ∈ p.users, u.summary.id = id → ∃ u' ∈ p.users, u'.summary.id = id ∧ UserObject.IsBlank u'

/-- **When the call is right.**  A number is asked for that is not negative, the answer fits into
the buffer and the contacts into the 512 places that there are at most, and nothing is lost by it
that a contact is left out of the join: because the array ends before the contacts do, or because
its id has come before. -/
def Served (maxEntries : Int32) : Prop :=
  0 < maxEntries ∧ p.bytes.length ≤ 65536 ∧ (p.contacts.length ≤ 512 ∨ maxEntries ≤ 512) ∧
    ∀ (i : ℕ) c, i < maxEntries.toInt.toNat → p.contacts[i]? = some c →
      (maxEntries.toInt.toNat < p.contacts.length ∨
        c.userId ∈ (p.contacts.take i).map ContactRecord.userId) → p.Unnamed c.userId

variable {p}

theorem describes_entry_iff (c : ContactRecord) : p.Describes c.entry c ↔ p.Unnamed c.userId := by
  constructor
  · rintro ⟨-, -, ⟨u, hu, hid, hdata⟩ | ⟨hnone, -⟩⟩ u' hu' hid'
    · obtain ⟨h1, h2, h3⟩ := hdata
      exact ⟨u, hu, hid, h1.symm, h2.symm, h3.symm⟩
    · exact absurd hid' (hnone u' hu')
  · intro h
    refine ⟨rfl, rfl, ?_⟩
    by_cases hsome : ∃ u ∈ p.users, u.summary.id = c.userId
    · obtain ⟨u, hu, hid⟩ := hsome
      obtain ⟨u', hu', hid', h1, h2, h3⟩ := h u hu hid
      exact Or.inl ⟨u', hu', hid', h1.symm, h2.symm, h3.symm⟩
    · exact Or.inr ⟨fun u hu hid => hsome ⟨u, hu, hid⟩, rfl⟩

theorem attach_hasDataOf (e : ContactEntry) (u : UserObject) :
    (e.attach u.summary).HasDataOf u := by
  refine ⟨rfl, take_of_length_le ?_, take_of_length_le ?_⟩
  · cases u with
    | empty id => exact Nat.zero_le _
    | user u => exact length_take_le _ _
  · cases u with
    | empty id => exact Nat.zero_le _
    | user u =>
      show (if hasFlag u.flags 3 then (cstr u.username.val).take 63 else []).length ≤ 63
      split_ifs
      · exact length_take_le _ _
      · exact Nat.zero_le _

theorem describes_joined {c : ContactRecord} {before : List ContactEntry}
    (h : c.entry.userId ∉ before.map ContactEntry.userId) :
    p.Describes (joinedEntry (p.users.map UserObject.summary) before c.entry) c := by
  have hid : c.entry.userId = c.userId := rfl
  rw [joinedEntry, if_neg h, hid]
  rcases hlast : ((p.users.map UserObject.summary).filter fun u => u.id = c.userId).getLast?
    with _ | s <;> rw [hlast]
  · refine ⟨rfl, rfl, Or.inr ⟨fun u hu hu' => ?_, rfl⟩⟩
    rw [getLast?_eq_none_iff, filter_eq_nil_iff] at hlast
    exact hlast u.summary (mem_map_of_mem hu) (decide_eq_true hu')
  · have hmem := mem_of_getLast? hlast
    obtain ⟨hmap, hs⟩ := mem_filter.mp hmem
    obtain ⟨u, hu, rfl⟩ := mem_map.mp hmap
    exact ⟨rfl, rfl, Or.inl ⟨u, hu, of_decide_eq_true hs, attach_hasDataOf _ u⟩⟩

theorem domainGetContacts_api {maxEntries : Int32} (hpos : 0 < maxEntries)
    (hfit : p.bytes.length ≤ 65536) : domainGetContacts p.api maxEntries =
      readContactsReply (min maxEntries.toInt.toNat 512) p.bytes := by
  have hroom : (if maxEntries > contactsMax then contactsMax else maxEntries).toInt.toNat =
      min maxEntries.toInt.toNat 512 := by
    have hmax : contactsMax.toInt = 512 := rfl
    split_ifs with h
    · have := Int32.lt_iff_toInt_lt.mp h
      rw [hmax]
      omega
    · have := Int32.le_iff_toInt_le.mp (Int32.not_lt.mp h)
      omega
  have hapi : ∀ query, p.api query 65536 = some p.bytes := fun _ => if_pos hfit
  rw [domainGetContacts, if_neg (Int32.not_le.mpr hpos)]
  rw [if_neg (by decide), hapi, Option.bind_some, hroom]

theorem length_returned (room : ℕ) : (p.returned room).length = min p.contacts.length room := by
  unfold returned
  split_ifs
  · rw [length_foldl_attachUser, length_map]
    omega
  · rw [length_map, length_take]
    omega

theorem getElem?_returned {room i : ℕ} {c : ContactRecord} (hi : i < room)
    (hc : p.contacts[i]? = some c) : (p.returned room)[i]? = some (if p.contacts.length ≤ room then
      joinedEntry (p.users.map UserObject.summary) ((p.contacts.take i).map ContactRecord.entry)
        c.entry
      else c.entry) := by
  unfold returned
  split_ifs
  · rw [getElem?_foldl_attachUser, getElem?_map, hc, Option.map_some, Option.map_some,
      map_take]
  · rw [getElem?_map, getElem?_take_of_lt hi, hc, Option.map_some]

theorem describes_returned_iff (room i : ℕ) (c : ContactRecord) :
    p.Describes (if p.contacts.length ≤ room then joinedEntry (p.users.map UserObject.summary)
        ((p.contacts.take i).map ContactRecord.entry) c.entry else c.entry) c ↔
      (room < p.contacts.length ∨ c.userId ∈ (p.contacts.take i).map ContactRecord.userId →
        p.Unnamed c.userId) := by
  have hids : ((p.contacts.take i).map ContactRecord.entry).map ContactEntry.userId =
      (p.contacts.take i).map ContactRecord.userId := by
    rw [map_map]
    rfl
  have hid : c.entry.userId = c.userId := rfl
  by_cases hroom : p.contacts.length ≤ room
  · rw [if_pos hroom]
    by_cases hbefore : c.userId ∈ (p.contacts.take i).map ContactRecord.userId
    · rw [joinedEntry, hids, hid, if_pos hbefore, describes_entry_iff]
      exact ⟨fun h _ => h, fun h => h (Or.inr hbefore)⟩
    · refine iff_of_true (describes_joined ?_) fun h => ?_
      · rwa [hids]
      · exact absurd h (not_or.mpr ⟨not_lt.mpr hroom, hbefore⟩)
  · rw [if_neg hroom, describes_entry_iff]
    exact ⟨fun h _ => h, fun h => h (Or.inl (not_le.mp hroom))⟩

theorem returned_right_iff {room : ℕ} :
    (∀ (i : ℕ) e c, (p.returned room)[i]? = some e → p.contacts[i]? = some c → p.Describes e c) ↔
      ∀ (i : ℕ) c, i < room → p.contacts[i]? = some c →
        (room < p.contacts.length ∨ c.userId ∈ (p.contacts.take i).map ContactRecord.userId) →
        p.Unnamed c.userId := by
  constructor
  · intro h i c hi hc
    exact (describes_returned_iff room i c).mp (h i _ c (getElem?_returned hi hc) hc)
  · intro h i e c he hc
    have hlt := (List.getElem?_eq_some_iff.mp he).1
    rw [length_returned] at hlt
    have hi : i < room := by omega
    obtain rfl := Option.some.inj ((getElem?_returned hi hc).symm.trans he)
    exact (describes_returned_iff room i c).mpr (h i c hi hc)

/-- **The contacts of an answer.**  The call returns the first contacts, as many as are asked for,
with the data of their users, if and only if the answer is `Served`. -/
theorem listed_iff (p : ContactsReply) (maxEntries : Int32) :
    p.Listed maxEntries ↔ p.Served maxEntries := by
  by_cases hpos : 0 < maxEntries
  · by_cases hfit : p.bytes.length ≤ 65536
    · have hcall : p.Listed maxEntries ↔
          (p.returned (min maxEntries.toInt.toNat 512)).length =
            min p.contacts.length maxEntries.toInt.toNat ∧
          ∀ (i : ℕ) e c, (p.returned (min maxEntries.toInt.toNat 512))[i]? = some e →
            p.contacts[i]? = some c → p.Describes e c := by
        rw [Listed, domainGetContacts_api hpos hfit, readContactsReply_bytes]
        simp
      have hle : maxEntries ≤ 512 ↔ maxEntries.toInt.toNat ≤ 512 := by
        rw [Int32.le_iff_toInt_le, show (512 : Int32).toInt = 512 from rfl]
        omega
      rw [hcall, length_returned, returned_right_iff, Served, hle]
      generalize maxEntries.toInt.toNat = m
      by_cases hmax : p.contacts.length ≤ 512 ∨ m ≤ 512
      · have hroom : ∀ i, i < p.contacts.length → (i < min m 512 ↔ i < m) := by omega
        have hcut : min m 512 < p.contacts.length ↔ m < p.contacts.length := by omega
        have hlen : min p.contacts.length (min m 512) = min p.contacts.length m := by omega
        refine ⟨fun ⟨_, h⟩ => ⟨hpos, hfit, hmax, fun i c hi hc hlost => ?_⟩,
          fun ⟨_, _, _, h⟩ => ⟨hlen, fun i c hi hc hlost => ?_⟩⟩
        · exact h i c ((hroom i (List.getElem?_eq_some_iff.mp hc).1).mpr hi) hc
            (hlost.imp_left hcut.mpr)
        · exact h i c ((hroom i (List.getElem?_eq_some_iff.mp hc).1).mp hi) hc
            (hlost.imp_left hcut.mp)
      · refine iff_of_false (fun h => ?_) fun h => hmax h.2.2.1
        omega
    · refine iff_of_false ?_ fun h => hfit h.2.1
      rintro ⟨out, hout, -⟩
      have hapi : ∀ query, p.api query 65536 = none := fun _ => if_neg hfit
      rw [domainGetContacts, if_neg (Int32.not_le.mpr hpos)] at hout
      dsimp only at hout
      rw [hapi, Option.bind_none, ite_self] at hout
      exact absurd hout.symm (Option.some_ne_none out)
  · refine iff_of_false ?_ fun h => hpos h.1
    rintro ⟨out, hout, -⟩
    rw [domainGetContacts, if_pos (Int32.not_lt.mp hpos)] at hout
    exact absurd hout.symm (Option.some_ne_none out)

end ContactsReply

/-! ### An array with one place -/

/-- A user with nothing but a first name. -/
def namedUser (id : Int64) (name : TlString) : UserObject :=
  .user {
    crc := tlUser
    known := Or.inl rfl
    flags := 2
    flags2 := 0
    id
    accessHash := 0
    firstName := name
    lastName := name
    username := name
    rest := []
    walked := Reads.pure () }

/-- Two contacts, and a user for the first one. -/
def twoContacts : ContactsReply :=
  ⟨[⟨1, true⟩, ⟨2, true⟩], 0, [namedUser 1 ⟨ascii "Ann", by decide⟩], by decide, by decide⟩

/-- With room for one contact, it is returned without its name. -/
theorem twoContacts_unnamed :
    ¬ ∀ (p : ContactsReply) (maxEntries : Int32), 0 < maxEntries → maxEntries ≤ 512 →
      p.Listed maxEntries := by
  intro h
  obtain ⟨out, hout, -, hright⟩ := h twoContacts 1 (by decide) (by decide)
  have hrun : domainGetContacts twoContacts.api 1 = some [⟨1, 0, true, [], []⟩] := by decide +kernel
  obtain rfl := Option.some.inj (hrun.symm.trans hout)
  obtain ⟨-, -, ⟨u, hu, -, -, hname, -⟩ | ⟨hnone, -⟩⟩ := hright 0 _ _ rfl rfl
  · obtain rfl := mem_singleton.mp hu
    exact absurd hname (by decide +kernel)
  · exact hnone _ (mem_singleton_self _) rfl

end TgCli.Domain
