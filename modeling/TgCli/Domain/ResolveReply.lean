import TgCli.Core.TlSkip.UserLayout
import TgCli.Domain.UserInfo

/-!
# `domain/read/user_info.c`: whose access hash a username resolves to

A `contacts.resolvedPeer` names its peer by a kind and an id, and brings the object of the peer
along in one of two vectors: the chats, where groups and channels stand, and the users.

`domain_resolve_username` looks at one object of each vector, the first.  It cannot look at a
second one, because it reads only the beginning of an object and does not know where it ends.

* If there are chats at all, the word behind the part it has read of the first one is taken for the
  second vector, although it belongs to the chat (`constructorPlaces_of_chats`).
* If there are none, the first user gives its access hash to the peer if it has the peer's id,
  whatever kind the peer is of, and a user further back gives nothing.

`resolvesRight_iff` puts this together.
-/

namespace TgCli.Domain

open Option List Lib TgCli.Core Infrastructure

/-! ## Where a constructor is read -/

/-- The places where `domain_resolve_username` reads a word as the constructor of a vector or of an
object. -/
def constructorPlaces (resp : Bytes) : List ℕ :=
  let pcrc := tlReadUint32 (tlReadUint32 (tlReaderInit resp)).2
  let id := tlReadInt64 pcrc.2
  let vec := tlReadUint32 id.2
  if resolvedKind pcrc.1 = none then [] else
  if vec.1 ≠ tlVector then [id.2.pos] else
  let nchats := tlReadUint32 vec.2
  let chats := readFirstObject (· = tlChannel) parseChannelPrefix nchats.1 nchats.2 .zero
  let places := id.2.pos :: (if nchats.1 = 0 then [] else [nchats.2.pos]) ++ [chats.2.pos]
  let vec := tlReadUint32 chats.2
  if vec.1 ≠ tlVector then places else
  let nusers := tlReadUint32 vec.2
  places ++ if nusers.1 = 0 then [] else [nusers.2.pos]

/-! ## Answers -/

/-- A `Chat`.  Of the fields behind the title nothing is said; `migratedTo` is there or not. -/
inductive ChatObject where
  | empty (id : Int64)
  | forbidden (id : Int64) (title : TlString)
  | chat (flags : UInt32) (migratedTo : Bytes) (id : Int64) (title : TlString) (rest : Bytes)
  | channelForbidden (flags : UInt32) (id accessHash : Int64) (title : TlString) (rest : Bytes)
  | channel (flags flags2 : UInt32) (id accessHash : Int64) (title : TlString) (rest : Bytes)

structure ReplyObject where
  kind : ResolvedKind
  id : Int64
  hash : Option Int64

namespace ChatObject

def bytes : ChatObject → Bytes
  | empty id => u32Bytes tlChatEmpty ++ u64Bytes id.toUInt64
  | forbidden id title => u32Bytes tlChatForbidden ++ (u64Bytes id.toUInt64 ++ title.bytes)
  | chat flags migratedTo id title rest =>
    u32Bytes tlChat ++ (u32Bytes flags ++ (migratedTo ++ (u64Bytes id.toUInt64 ++
      (title.bytes ++ rest))))
  | channelForbidden flags id accessHash title rest =>
    u32Bytes tlChannelForbidden ++ (u32Bytes flags ++ (u64Bytes id.toUInt64 ++
      (u64Bytes accessHash.toUInt64 ++ (title.bytes ++ rest))))
  | channel flags flags2 id accessHash title rest =>
    u32Bytes tlChannel ++ (u32Bytes flags ++ (u32Bytes flags2 ++ (u64Bytes id.toUInt64 ++
      (whenSet (hasFlag flags 13) (fun _ => u64Bytes accessHash.toUInt64) ++
        (title.bytes ++ rest)))))

def object : ChatObject → ReplyObject
  | empty id => ⟨.chat, id, none⟩
  | forbidden id _ => ⟨.chat, id, none⟩
  | chat _ _ id _ _ => ⟨.chat, id, none⟩
  | channelForbidden _ id accessHash _ _ => ⟨.channel, id, some accessHash⟩
  | channel flags _ id accessHash _ _ =>
    ⟨.channel, id, if hasFlag flags 13 then some accessHash else none⟩

/-- A chat begins with its constructor, and at least eight bytes follow; a channel has a title
behind what is read of it. -/
theorem bytes_cases (c : ChatObject) :
    ∃ crc body, c.bytes = u32Bytes crc ++ body ∧ 8 ≤ body.length ∧
      (crc ≠ tlChannel ∨ ∃ (flags flags2 : UInt32) (id hash : Int64) (tail : Bytes),
        crc = tlChannel ∧ body = u32Bytes flags ++ (u32Bytes flags2 ++ (u64Bytes id.toUInt64 ++
          (whenSet (hasFlag flags 13) (fun _ => u64Bytes hash.toUInt64) ++ tail))) ∧
            tail ≠ []) := by
  cases c with
  | empty id => exact ⟨_, _, rfl, (length_u64Bytes _).ge, Or.inl (by decide)⟩
  | forbidden id title =>
    refine ⟨_, _, rfl, ?_, Or.inl (by decide)⟩
    rw [length_append, length_u64Bytes]
    omega
  | chat flags migratedTo id title rest =>
    refine ⟨_, _, rfl, ?_, Or.inl (by decide)⟩
    simp only [length_append, length_u64Bytes]
    omega
  | channelForbidden flags id accessHash title rest =>
    refine ⟨_, _, rfl, ?_, Or.inl (by decide)⟩
    simp only [length_append, length_u64Bytes]
    omega
  | channel flags flags2 id accessHash title rest =>
    refine ⟨_, _, rfl, ?_, Or.inr ⟨flags, flags2, id, accessHash, _, rfl, rfl, ?_⟩⟩
    · simp only [length_append, length_u64Bytes]
      omega
    · exact append_ne_nil_of_left_ne_nil (tlBytes_ne_nil title.val) rest

end ChatObject

def userHash (u : UserSummary) : Option Int64 :=
  if u.haveAccessHash then some u.accessHash else none

def userObject (u : UserObject) : ReplyObject :=
  ⟨.user, u.summary.id, userHash u.summary⟩

def peerCrc : ResolvedKind → UInt32
  | .unknown => 0
  | .user => tlPeerUser
  | .chat => tlPeerChat
  | .channel => tlPeerChannel

structure ResolvedReply where
  kind : ResolvedKind
  known : kind ≠ .unknown
  id : Int64
  chats : List ChatObject
  users : List UserObject
  chats_fit : chats.length < 2 ^ 32
  users_fit : users.length < 2 ^ 32

namespace ResolvedReply

variable (p : ResolvedReply)

def chatBytes : Bytes :=
  p.chats.flatMap ChatObject.bytes

def userVector : Bytes :=
  u32Bytes tlVector ++ (u32Bytes (UInt32.ofNat p.users.length) ++ p.users.flatMap UserObject.bytes)

def bytes : Bytes :=
  u32Bytes tlContactsResolvedPeer ++ (u32Bytes (peerCrc p.kind) ++ (u64Bytes p.id.toUInt64 ++
    (u32Bytes tlVector ++ (u32Bytes (UInt32.ofNat p.chats.length) ++
      (p.chatBytes ++ p.userVector)))))

def objects : List ReplyObject :=
  p.chats.map ChatObject.object ++ p.users.map userObject

/-- The object is the one of the peer and has an access hash. -/
def Carries (o : ReplyObject) : Prop :=
  o.kind = p.kind ∧ o.id = p.id ∧ o.hash ≠ none

/-- The place is inside one of the objects. -/
def Inside (x : ℕ) : Prop :=
  (∃ before c after, p.chats = before ++ c :: after ∧
    24 + (before.flatMap ChatObject.bytes).length < x ∧
    x < 24 + (before.flatMap ChatObject.bytes).length + c.bytes.length) ∨
  ∃ before u after, p.users = before ++ u :: after ∧
    32 + p.chatBytes.length + (before.flatMap UserObject.bytes).length < x ∧
    x < 32 + p.chatBytes.length + (before.flatMap UserObject.bytes).length + u.bytes.length

end ResolvedReply

/-- The call is answered with `p`: it is not in the cache, and the request goes out. -/
structure Answered (p : ResolvedReply) (q : ResolveCall) (c : ResolveCache) : Prop where
  miss : (rcacheLookupV2 (bareName q.username) q.lookupAt c).1 = .miss
  answer : ∀ query, q.api query = some p.bytes

/-- What is asked of a call that is answered with `p`. -/
structure ResolvesRight (p : ResolvedReply) : Prop where
  right : ∀ q c rp, Answered p q c → (domainResolveUsername q c).1 = some rp → rp.haveHash = true →
    ∃ o ∈ p.objects, p.Carries o ∧ o.hash = some rp.accessHash
  reported : ∀ q c rp, Answered p q c → (domainResolveUsername q c).1 = some rp →
    (∃ o ∈ p.objects, p.Carries o) → rp.haveHash = true
  outside : ∀ x ∈ constructorPlaces p.bytes, ¬ p.Inside x

/-! ## Reading an answer -/

section Words

variable {b t : Bytes} {n : ℕ}

theorem read32 {v : UInt32} (h : b.drop n = u32Bytes v ++ t) :
    tlReadUint32 ⟨b, n⟩ = (v, ⟨b, n + 4⟩) ∧ b.drop (n + 4) = t := by
  have hrest : (⟨b, n⟩ : TlReader).rest = u32Bytes v ++ t := h
  refine ⟨tlReadUint32_at_rest hrest, ?_⟩
  rw [← drop_drop, h]
  exact drop_left' (length_u32Bytes v)

theorem read64 {v : Int64} (h : b.drop n = u64Bytes v.toUInt64 ++ t) :
    tlReadInt64 ⟨b, n⟩ = (v, ⟨b, n + 8⟩) ∧ b.drop (n + 8) = t := by
  have hrest : (⟨b, n⟩ : TlReader).rest = u64Bytes v.toUInt64 ++ t := h
  constructor
  · rw [tlReadInt64, tlReadUint64_at_rest hrest]
    rfl
  · rw [← drop_drop, h]
    exact drop_left' (length_u64Bytes _)

end Words

theorem resolvedKind_peerCrc {kind : ResolvedKind} (h : kind ≠ .unknown) :
    resolvedKind (peerCrc kind) = some kind := by
  cases kind with
  | unknown => exact absurd rfl h
  | user => rfl
  | chat => rfl
  | channel => rfl

namespace ResolvedReply

variable (p : ResolvedReply)

theorem reads_header :
    tlReadUint32 ⟨p.bytes, 0⟩ = (tlContactsResolvedPeer, ⟨p.bytes, 4⟩) ∧
      tlReadUint32 ⟨p.bytes, 4⟩ = (peerCrc p.kind, ⟨p.bytes, 8⟩) ∧
      tlReadInt64 ⟨p.bytes, 8⟩ = (p.id, ⟨p.bytes, 16⟩) ∧
      tlReadUint32 ⟨p.bytes, 16⟩ = (tlVector, ⟨p.bytes, 20⟩) ∧
      tlReadUint32 ⟨p.bytes, 20⟩ = (UInt32.ofNat p.chats.length, ⟨p.bytes, 24⟩) ∧
      p.bytes.drop 24 = p.chatBytes ++ p.userVector := by
  have h0 : p.bytes.drop 0 = u32Bytes tlContactsResolvedPeer ++ (u32Bytes (peerCrc p.kind) ++
      (u64Bytes p.id.toUInt64 ++ (u32Bytes tlVector ++ (u32Bytes (UInt32.ofNat p.chats.length) ++
        (p.chatBytes ++ p.userVector))))) := rfl
  obtain ⟨r0, h4⟩ := read32 h0
  obtain ⟨r4, h8⟩ := read32 h4
  obtain ⟨r8, h16⟩ := read64 h8
  obtain ⟨r16, h20⟩ := read32 h16
  obtain ⟨r20, h24⟩ := read32 h20
  exact ⟨r0, r4, r8, r16, r20, h24⟩

def readObjects (out : ResolvedPeer) : ResolvedPeer :=
  let chats := readFirstObject (· = tlChannel) parseChannelPrefix (UInt32.ofNat p.chats.length)
    ⟨p.bytes, 24⟩ out
  let vec := tlReadUint32 chats.2
  if vec.1 ≠ tlVector then chats.1 else
  let nusers := tlReadUint32 vec.2
  (readFirstObject (fun crc => crc = tlUser ∨ crc = tlUser2) parseUserPrefix nusers.1 nusers.2
    chats.1).1

theorem readResolvedPeer_bytes (out : ResolvedPeer) :
    readResolvedPeer out p.bytes =
      some (p.readObjects { out with kind := p.kind, id := p.id }) := by
  obtain ⟨r0, r4, r8, r16, r20, -⟩ := p.reads_header
  unfold readResolvedPeer readObjects
  have hinit : tlReaderInit p.bytes = ⟨p.bytes, 0⟩ := rfl
  rw [hinit, r0]
  dsimp only
  rw [r4]
  rw [resolvedKind_peerCrc p.known]
  dsimp only [bind_eq_bind, bind_some]
  rw [r8]
  rw [r16]
  rw [r20, if_neg (not_not.mpr rfl)]
  split_ifs <;> rfl

theorem readResolveReply_bytes (bare : Bytes) :
    readResolveReply bare (some p.bytes) = .found (p.readObjects
      { ResolvedPeer.zero with
        username := copySmall 64 (some bare), kind := p.kind, id := p.id }) := by
  obtain ⟨r0, -, -, -, -, -⟩ := p.reads_header
  have hlen : 4 ≤ p.bytes.length := by
    rw [bytes, length_append, length_u32Bytes]
    omega
  have htop : u32At p.bytes 0 = tlContactsResolvedPeer := by
    rw [tlReadUint32_at (by omega)] at r0
    exact (Prod.mk.inj r0).1
  unfold readResolveReply
  dsimp only
  rw [if_neg (by omega), htop, if_neg (by decide), if_neg (not_not.mpr rfl), readResolvedPeer_bytes]

/-! ### The users -/

/-- The access hash of the first user, if it has the id of the peer. -/
def firstHash : Option Int64 :=
  match p.users with
  | [] => none
  | u :: _ => if u.summary.id = p.id then userHash u.summary else none

variable {p}

theorem parseUserPrefix_head (r : TlReader) :
    (parseUserPrefix r .zero).1.id = (tlReadInt64 (tlReadUint32 (tlReadUint32 r).2).2).1 ∧
      (parseUserPrefix r .zero).1.haveHash = hasFlag (tlReadUint32 r).1 0 ∧
      (parseUserPrefix r .zero).1.accessHash = if hasFlag (tlReadUint32 r).1 0 then
        (tlReadInt64 (tlReadInt64 (tlReadUint32 (tlReadUint32 r).2).2).2).1 else 0 := by
  unfold parseUserPrefix
  dsimp only
  generalize readNameIf (hasFlag (tlReadUint32 r).1 3) 64 _ = user
  generalize readNameIf (hasFlag (tlReadUint32 r).1 2) 64 _ = last
  generalize readNameIf (hasFlag (tlReadUint32 r).1 1) 64 _ = first
  generalize (tlReadInt64 (tlReadInt64 (tlReadUint32 (tlReadUint32 r).2).2).2).1 = hash
  generalize (tlReadInt64 (tlReadUint32 (tlReadUint32 r).2).2).1 = id
  generalize hasFlag (tlReadUint32 r).1 0 = c₀
  generalize hasFlag (tlReadUint32 r).1 3 = c₃
  refine ⟨?_, ?_, ?_⟩ <;> cases c₀ <;> cases c₃ <;> simp only [↓reduceIte, Bool.false_eq_true] <;>
    split_ifs <;> rfl

theorem parseUserPrefix_of_fields_bytes {u : UserRecord} {b t : Bytes} {n : ℕ}
    (h : b.drop n = u.fields ++ t) :
    (parseUserPrefix ⟨b, n⟩ .zero).1.id = u.summary.id ∧
      (parseUserPrefix ⟨b, n⟩ .zero).1.haveHash = u.summary.haveAccessHash ∧
      (parseUserPrefix ⟨b, n⟩ .zero).1.accessHash = u.summary.accessHash := by
  unfold UserRecord.fields at h
  rw [append_assoc, append_assoc, append_assoc] at h
  obtain ⟨rflags, h⟩ := read32 h
  obtain ⟨rflags2, h⟩ := read32 h
  obtain ⟨rid, h⟩ := read64 h
  obtain ⟨hid, hhave, hhash⟩ := parseUserPrefix_head ⟨b, n⟩
  rw [hid, hhave, hhash, rflags]
  rw [rflags2]
  rw [rid]
  refine ⟨rfl, rfl, ?_⟩
  unfold UserRecord.summary
  rcases hc : hasFlag u.flags 0 with _ | _
  · rfl
  · rw [hc, whenSet, dif_pos rfl, append_assoc] at h
    rw [if_pos rfl, if_pos rfl, (read64 h).1]

theorem ofNat_length_eq_zero_iff {α : Type} {l : List α} (h : l.length < 2 ^ 32) :
    UInt32.ofNat l.length = 0 ↔ l = [] := by
  rw [← UInt32.toNat_inj, UInt32.toNat_ofNat_of_lt' h, UInt32.toNat_zero, length_eq_zero_iff]

theorem reads_userVector (h : p.chats = []) :
    tlReadUint32 ⟨p.bytes, 24⟩ = (tlVector, ⟨p.bytes, 28⟩) ∧
      tlReadUint32 ⟨p.bytes, 28⟩ = (UInt32.ofNat p.users.length, ⟨p.bytes, 32⟩) ∧
      p.bytes.drop 32 = p.users.flatMap UserObject.bytes := by
  obtain ⟨-, -, -, -, -, h24⟩ := p.reads_header
  rw [chatBytes, h, flatMap_nil, nil_append] at h24
  obtain ⟨r24, h28⟩ := read32 h24
  obtain ⟨r28, h32⟩ := read32 h28
  exact ⟨r24, r28, h32⟩

section First

variable {isKnown : UInt32 → Bool} {parsePrefix : TlReader → ResolvedPeer → ResolvedPeer × TlReader}
  {n crc : UInt32} {r r' : TlReader} {out : ResolvedPeer}

theorem readFirstObject_none (hn : n = 0) :
    readFirstObject isKnown parsePrefix n r out = (out, r) := by
  rw [readFirstObject, if_pos hn]

theorem readFirstObject_known (hn : n ≠ 0) (hr : tlReadUint32 r = (crc, r'))
    (hk : isKnown crc = true) :
    readFirstObject isKnown parsePrefix n r out =
      (if (parsePrefix r' .zero).1.id = out.id then
        { out with accessHash := (parsePrefix r' .zero).1.accessHash,
                   haveHash := (parsePrefix r' .zero).1.haveHash } else out,
        (parsePrefix r' .zero).2) := by
  rw [readFirstObject, if_neg hn, hr]
  rw [if_pos hk]

theorem readFirstObject_unknown (hn : n ≠ 0) (hr : tlReadUint32 r = (crc, r'))
    (hk : isKnown crc = false) : readFirstObject isKnown parsePrefix n r out = (out, r') := by
  rw [readFirstObject, if_neg hn, hr]
  rw [if_neg (by rw [hk]; exact Bool.false_ne_true)]

end First

theorem readObjects_of_no_chats (h : p.chats = []) {out : ResolvedPeer} (hid : out.id = p.id)
    (hhave : out.haveHash = false) (hhash : out.accessHash = 0) :
    (p.readObjects out).haveHash = p.firstHash.isSome ∧
      (p.readObjects out).accessHash = p.firstHash.getD 0 := by
  obtain ⟨r24, r28, h32⟩ := reads_userVector h
  unfold readObjects
  rw [readFirstObject_none ((ofNat_length_eq_zero_iff p.chats_fit).mpr h)]
  dsimp only
  rw [r24]
  rw [if_neg (not_not.mpr rfl), r28]
  unfold firstHash
  rcases husers : p.users with _ | ⟨u, us⟩
  · rw [readFirstObject_none (n := UInt32.ofNat ([] : List UserObject).length) rfl]
    exact ⟨hhave, hhash⟩
  · have hne : UInt32.ofNat (u :: us).length ≠ 0 := by
      rw [← husers, ne_eq, ofNat_length_eq_zero_iff p.users_fit, husers]
      exact cons_ne_nil _ _
    rw [husers, flatMap_cons] at h32
    cases u with
    | empty id =>
      -- an empty user is not looked at
      rw [UserObject.bytes, append_assoc] at h32
      rw [readFirstObject_unknown hne (read32 h32).1 (by decide)]
      have hnone : userHash (UserObject.empty id).summary = none := rfl
      dsimp only
      rw [hnone, ite_self]
      exact ⟨hhave, hhash⟩
    | user u =>
      rw [UserObject.bytes, UserRecord.bytes, append_assoc] at h32
      obtain ⟨rcrc, h36⟩ := read32 h32
      rw [readFirstObject_known hne rcrc (decide_eq_true u.known)]
      obtain ⟨huid, huhave, huhash⟩ := parseUserPrefix_of_fields_bytes h36
      generalize parseUserPrefix ⟨p.bytes, 32 + 4⟩ .zero = tmp at huid huhave huhash
      rw [huid, hid]
      have hsum : (UserObject.user u).summary = u.summary := rfl
      dsimp only
      rw [hsum]
      split_ifs with heq
      · rw [userHash, ← huhave, ← huhash]
        have hzero : tmp.1.haveHash = false → tmp.1.accessHash = 0 := by
          intro hf
          rw [huhave] at hf
          rw [huhash]
          have hflag : hasFlag u.flags 0 = false := hf
          show (if hasFlag u.flags 0 then u.accessHash else 0) = 0
          rw [hflag]
          rfl
        rcases hb : tmp.1.haveHash with _ | _
        · exact ⟨rfl, hzero hb⟩
        · exact ⟨rfl, rfl⟩
      · exact ⟨hhave, hhash⟩

/-! ### The chats -/

theorem parseChannelPrefix_pos {flags flags2 : UInt32} {id hash : Int64} {b t : Bytes} {n : ℕ}
    (h : b.drop n = u32Bytes flags ++ (u32Bytes flags2 ++ (u64Bytes id.toUInt64 ++
      (whenSet (hasFlag flags 13) (fun _ => u64Bytes hash.toUInt64) ++ t)))) :
    (parseChannelPrefix ⟨b, n⟩ .zero).2.pos =
      n + 16 + (whenSet (hasFlag flags 13) fun _ => u64Bytes hash.toUInt64).length := by
  obtain ⟨rflags, h⟩ := read32 h
  obtain ⟨rflags2, h⟩ := read32 h
  obtain ⟨rid, h⟩ := read64 h
  unfold parseChannelPrefix
  rw [rflags]
  dsimp only
  rw [rflags2]
  rw [rid]
  rcases hc : hasFlag flags 13 with _ | _
  · rfl
  · rw [hc, whenSet, dif_pos rfl] at h
    rw [if_pos rfl, (read64 h).1, whenSet, dif_pos rfl, length_u64Bytes]

/-- The first chat is left somewhere in the middle. -/
theorem chats_cursor_inside {c : ChatObject} {cs : List ChatObject} (h : p.chats = c :: cs)
    (out : ResolvedPeer) :
    24 < (readFirstObject (· = tlChannel) parseChannelPrefix (UInt32.ofNat p.chats.length)
      ⟨p.bytes, 24⟩ out).2.pos ∧
    (readFirstObject (· = tlChannel) parseChannelPrefix (UInt32.ofNat p.chats.length)
      ⟨p.bytes, 24⟩ out).2.pos < 24 + c.bytes.length := by
  obtain ⟨-, -, -, -, -, h24⟩ := p.reads_header
  have hne : UInt32.ofNat p.chats.length ≠ 0 := by
    rw [ne_eq, ofNat_length_eq_zero_iff p.chats_fit, h]
    exact cons_ne_nil _ _
  rw [chatBytes, h, flatMap_cons, append_assoc] at h24
  generalize cs.flatMap ChatObject.bytes ++ p.userVector = t at h24
  obtain ⟨crc, body, hbytes, hlen, hcrc | ⟨flags, flags2, id, hash, tail, hcrc, hbody, htail⟩⟩ :=
    c.bytes_cases
  · -- only the constructor is read
    rw [hbytes, append_assoc] at h24
    rw [readFirstObject_unknown hne (read32 h24).1 (decide_eq_false hcrc), hbytes, length_append,
      length_u32Bytes]
    dsimp only
    exact ⟨by omega, by omega⟩
  · rw [hbytes, append_assoc] at h24
    obtain ⟨rcrc, h28⟩ := read32 h24
    rw [readFirstObject_known hne rcrc (decide_eq_true hcrc)]
    rw [hbody] at h28
    simp only [append_assoc] at h28
    have hpos := parseChannelPrefix_pos h28
    have htail' := length_pos_iff.mpr htail
    rw [hpos, hbytes, hbody]
    simp only [length_append, length_u32Bytes, length_u64Bytes]
    exact ⟨by omega, by omega⟩

/-! ## Where the constructors are read -/

theorem constructorPlaces_of_chats {c : ChatObject} {cs : List ChatObject} (h : p.chats = c :: cs) :
    ∃ x ∈ constructorPlaces p.bytes, p.Inside x := by
  obtain ⟨r0, r4, r8, r16, r20, -⟩ := p.reads_header
  obtain ⟨hlo, hhi⟩ := chats_cursor_inside h .zero
  refine ⟨_, ?_, Or.inl ⟨[], c, cs, h, hlo, hhi⟩⟩
  have hinit : tlReaderInit p.bytes = ⟨p.bytes, 0⟩ := rfl
  unfold constructorPlaces
  rw [hinit, r0]
  dsimp only
  rw [r4]
  rw [resolvedKind_peerCrc p.known, if_neg (some_ne_none _), r8]
  rw [r16]
  rw [if_neg (not_not.mpr rfl), r20]
  split_ifs <;> simp

theorem constructorPlaces_of_no_chats (h : p.chats = []) :
    ∀ x ∈ constructorPlaces p.bytes, x ≤ 32 := by
  obtain ⟨r0, r4, r8, r16, r20, -⟩ := p.reads_header
  obtain ⟨r24, r28, -⟩ := reads_userVector h
  have hinit : tlReaderInit p.bytes = ⟨p.bytes, 0⟩ := rfl
  unfold constructorPlaces
  rw [hinit, r0]
  dsimp only
  rw [r4]
  rw [resolvedKind_peerCrc p.known, if_neg (some_ne_none _), r8]
  rw [r16]
  rw [if_neg (not_not.mpr rfl), r20]
  rw [readFirstObject_none ((ofNat_length_eq_zero_iff p.chats_fit).mpr h)]
  rw [r24]
  rw [if_neg (not_not.mpr rfl), r28]
  intro x hx
  split_ifs at hx <;> simp at hx <;> omega

theorem not_inside_of_no_chats (h : p.chats = []) {x : ℕ} (hx : x ≤ 32) : ¬ p.Inside x := by
  rintro (⟨before, c, after, hsplit, -, -⟩ | ⟨before, u, after, -, hlo, -⟩)
  · rw [h] at hsplit
    exact absurd hsplit (by simp)
  · omega

end ResolvedReply

/-! ## The call -/

theorem Answered.eq_readObjects {p : ResolvedReply} {q : ResolveCall} {c : ResolveCache}
    {rp : ResolvedPeer} (h : Answered p q c) (hrp : (domainResolveUsername q c).1 = some rp) :
    ∃ out : ResolvedPeer, rp = p.readObjects out ∧ out.id = p.id ∧ out.haveHash = false ∧
      out.accessHash = 0 := by
  have hmiss := h.miss
  unfold domainResolveUsername at hrp
  dsimp only at hrp
  rcases hlook : rcacheLookupV2 (bareName q.username) q.lookupAt c with ⟨res, c'⟩
  rw [hlook] at hrp hmiss
  obtain rfl : res = .miss := hmiss
  rcases hreq : buildResolveRequest q.username 128 with _ | query <;> rw [hreq] at hrp
  · cases hrp
  · dsimp only at hrp
    rw [h.answer query, p.readResolveReply_bytes] at hrp
    exact ⟨_, (some.inj hrp).symm, rfl, rfl, rfl⟩

/-- The first user carries the access hash if and only if an object of the peer does. -/
def ResolvedReply.FirstUserDecides (p : ResolvedReply) : Prop :=
  p.firstHash ≠ none ↔ ∃ o ∈ p.objects, p.Carries o

/-- A call on an empty cache that is answered with `p`. -/
def freshCall (p : ResolvedReply) : ResolveCall :=
  ⟨ascii "a", fun _ => some p.bytes, 0, 0⟩

theorem lookup_empty_cache : (rcacheLookupV2 (bareName (ascii "a")) 0 .empty).1 = .miss := by
  decide +kernel

theorem answered_freshCall (p : ResolvedReply) : Answered p (freshCall p) .empty :=
  ⟨lookup_empty_cache, fun _ => rfl⟩

theorem exists_freshCall (p : ResolvedReply) :
    ∃ rp, (domainResolveUsername (freshCall p) .empty).1 = some rp := by
  have hmiss := (answered_freshCall p).miss
  unfold domainResolveUsername
  rcases hlook : rcacheLookupV2 (bareName (freshCall p).username) (freshCall p).lookupAt .empty with
    ⟨res, c'⟩
  rw [hlook] at hmiss
  obtain rfl : res = .miss := hmiss
  have hreq : ∃ query, buildResolveRequest (freshCall p).username 128 = some query := ⟨_, rfl⟩
  obtain ⟨query, hquery⟩ := hreq
  rw [hquery]
  dsimp only
  rw [(answered_freshCall p).answer query, p.readResolveReply_bytes]
  exact ⟨_, rfl⟩

theorem ResolvedReply.exists_first {p : ResolvedReply} (h : p.chats = []) {o : ReplyObject}
    (ho : o ∈ p.objects) (hcarries : p.Carries o) {v : Int64} (hv : p.firstHash = some v) :
    ∃ o ∈ p.objects, p.Carries o ∧ o.hash = some v := by
  rw [objects, h, map_nil, nil_append] at ho ⊢
  obtain ⟨w, -, rfl⟩ := mem_map.mp ho
  have hkind : ResolvedKind.user = p.kind := hcarries.1
  unfold firstHash at hv
  rcases husers : p.users with _ | ⟨u, us⟩ <;> rw [husers] at hv
  · cases hv
  · dsimp only at hv
    split_ifs at hv with hid
    have hhash : (userObject u).hash = some v := hv
    refine ⟨userObject u, mem_cons_self, ⟨hkind, hid, ?_⟩, hhash⟩
    rw [hhash]
    exact some_ne_none v

/-- **Whose access hash it is.** -/
theorem resolvesRight_iff (p : ResolvedReply) :
    ResolvesRight p ↔ p.chats = [] ∧ p.FirstUserDecides := by
  constructor
  · intro h
    have hchats : p.chats = [] := by
      rcases hc : p.chats with _ | ⟨c, cs⟩
      · rfl
      · obtain ⟨x, hx, hin⟩ := ResolvedReply.constructorPlaces_of_chats hc
        exact absurd hin (h.outside x hx)
    refine ⟨hchats, ?_⟩
    obtain ⟨rp, hrp⟩ := exists_freshCall p
    have hans := answered_freshCall p
    obtain ⟨out, rfl, hid, hhave, hhash⟩ := hans.eq_readObjects hrp
    obtain ⟨h1, h2⟩ := ResolvedReply.readObjects_of_no_chats hchats hid hhave hhash
    constructor
    · intro hne
      have hsome : (p.readObjects out).haveHash = true := by
        rw [h1]
        exact isSome_iff_ne_none.mpr hne
      obtain ⟨o, ho, hcarries, -⟩ := h.right _ _ _ hans hrp hsome
      exact ⟨o, ho, hcarries⟩
    · intro hcarried
      have hsome := h.reported _ _ _ hans hrp hcarried
      rw [h1] at hsome
      exact isSome_iff_ne_none.mp hsome
  · rintro ⟨hchats, hdec⟩
    refine ⟨?_, ?_, fun x hx => ResolvedReply.not_inside_of_no_chats hchats
      (ResolvedReply.constructorPlaces_of_no_chats hchats x hx)⟩
    · intro q c rp hans hrp hsome
      obtain ⟨out, rfl, hid, hhave, hhash⟩ := hans.eq_readObjects hrp
      obtain ⟨h1, h2⟩ := ResolvedReply.readObjects_of_no_chats hchats hid hhave hhash
      rw [h1] at hsome
      obtain ⟨o, ho, hcarries⟩ := hdec.mp (isSome_iff_ne_none.mp hsome)
      obtain ⟨v, hv⟩ := isSome_iff_exists.mp hsome
      rw [h2, hv, getD_some]
      exact ResolvedReply.exists_first hchats ho hcarries hv
    · intro q c rp hans hrp hcarried
      obtain ⟨out, rfl, hid, hhave, hhash⟩ := hans.eq_readObjects hrp
      rw [(ResolvedReply.readObjects_of_no_chats hchats hid hhave hhash).1]
      exact isSome_iff_ne_none.mpr (hdec.mpr hcarried)

theorem emptyString_short : ([] : Bytes).length < 2 ^ 24 := by decide

theorem tlUser_known : tlUser = tlUser ∨ tlUser = tlUser2 := .inl rfl

def bareUser (id accessHash : Int64) : UserObject :=
  .user {
    crc := tlUser
    known := tlUser_known
    flags := 1
    flags2 := 0
    id
    accessHash
    firstName := ⟨[], emptyString_short⟩
    lastName := ⟨[], emptyString_short⟩
    username := ⟨[], emptyString_short⟩
    rest := []
    walked := Walk.Reads.pure () }

/-- The peer is user 7, who comes second. -/
def secondUser : ResolvedReply where
  kind := .user
  known := ResolvedKind.noConfusion
  id := 7
  chats := []
  users := [bareUser 1 5, bareUser 7 9]
  chats_fit := Nat.two_pow_pos 32
  users_fit := Nat.lt_of_succ_le (Nat.le_of_ble_eq_true rfl)

/-- The access hash of the user is not reported. -/
theorem not_resolvesRight_secondUser : ¬ ResolvesRight secondUser := by
  intro h
  obtain ⟨rp, hrp, hno⟩ : ∃ rp, (domainResolveUsername (freshCall secondUser) .empty).1 = some rp ∧
      rp.haveHash = false := ⟨_, rfl, by decide +kernel⟩
  have hcarries : ∃ o ∈ secondUser.objects, secondUser.Carries o :=
    ⟨userObject (bareUser 7 9), mem_cons_of_mem _ mem_cons_self, rfl, rfl,
      some_ne_none _⟩
  have hyes := h.reported _ _ rp (answered_freshCall secondUser) hrp hcarries
  rw [hno] at hyes
  cases hyes

end TgCli.Domain
