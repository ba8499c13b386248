import TgCli.Core.TlSkip.Chat
import TgCli.Core.TlValues
import TgCli.Infrastructure.MtprotoRpc
import TgCli.Lib.SlotTable

/-!
# `domain/read/user_info.c`: resolving a username

`contacts.resolveUsername` with a cache of 32 entries in front of it.  An answer is kept for five
minutes, the answer that there is no such user for one.

The cache is a table of slots (`Lib.SlotTable`) whose entries are found by name.  What it has to do
is said against the log of all that was stored (`ResolverLaw`): an answer from the cache is the
newest record for this very name, and it is not too old; no two entries in use have the same key;
with no slot free, the oldest entry goes.  The key of an entry has room for 63 bytes, though, and a
request is sent for names up to 123.  A longer name is stored under its first 63 bytes: it is never
found again, however often it is stored, and the name that these bytes are finds the answer for
another one.  `resolverLaw_iff` says that this is all that goes wrong.
-/

namespace TgCli.Domain

open List Lib TgCli.Core Infrastructure

def crcContactsResolveUsername : UInt32 := 0xf93ccba3
def tlContactsResolvedPeer : UInt32 := 0x7f077ad9

/-! ## The cache -/

def resolveCacheTtl : ℤ := 300

def resolveCacheNegTtl : ℤ := 60

def resolveCacheMax : ℕ := 32

inductive ResolvedKind where
  | unknown
  | user
  | chat
  | channel
  deriving DecidableEq

structure ResolvedPeer where
  kind : ResolvedKind
  id : Int64
  accessHash : Int64
  title : Bytes
  username : Bytes
  haveHash : Bool
  deriving DecidableEq

def ResolvedPeer.zero : ResolvedPeer :=
  ⟨.unknown, 0, 0, [], [], false⟩

/-- `ResolveCacheEntry`; a time is in seconds. -/
structure ResolveCacheEntry where
  valid : Bool
  negative : Bool
  fetchedAt : ℤ
  key : Bytes
  value : ResolvedPeer
  deriving DecidableEq

def ResolveCacheEntry.zero : ResolveCacheEntry :=
  ⟨false, false, 0, [], .zero⟩

structure ResolveCache where
  slots : List ResolveCacheEntry
  length_slots : slots.length = resolveCacheMax

namespace ResolveCache

@[ext] theorem ext {c c' : ResolveCache} (h : c.slots = c'.slots) : c = c' := by
  cases c
  cases c'
  cases h
  rfl

/-- `resolve_cache_flush`, and the table before the first call. -/
def empty : ResolveCache :=
  ⟨List.replicate resolveCacheMax .zero, List.length_replicate⟩

def set (c : ResolveCache) (i : ℕ) (e : ResolveCacheEntry) : ResolveCache :=
  ⟨c.slots.set i e, by rw [List.length_set, c.length_slots]⟩

theorem length_pos (c : ResolveCache) : 0 < c.slots.length := by
  rw [c.length_slots]
  decide

end ResolveCache

def resolveTtl (negative : Bool) : ℤ :=
  if negative then resolveCacheNegTtl else resolveCacheTtl

/-- `RcacheLookupResult`, with what is written to `*out`. -/
inductive RcacheLookupResult where
  | miss
  | hitPos (out : ResolvedPeer)
  | hitNeg
  deriving DecidableEq

/-- The loop of `rcache_lookup_v2`. -/
def lookupSlots (name : Bytes) (now : ℤ) :
    List ResolveCacheEntry → RcacheLookupResult × List ResolveCacheEntry
  | [] => (.miss, [])
  | e :: es =>
    if !e.valid || decide (e.key ≠ name) then
      let rest := lookupSlots name now es
      (rest.1, e :: rest.2)
    else if now - e.fetchedAt ≥ resolveTtl e.negative then (.miss, { e with valid := false } :: es)
    else (if e.negative then .hitNeg else .hitPos e.value, e :: es)

theorem length_lookupSlots (name : Bytes) (now : ℤ) (l : List ResolveCacheEntry) :
    (lookupSlots name now l).2.length = l.length := by
  induction l with
  | nil => rfl
  | cons e es ih =>
    rw [lookupSlots]
    split_ifs
    · exact congrArg Nat.succ ih
    · rfl
    · rfl
    · rfl

def rcacheLookupV2 (name : Bytes) (now : ℤ) (c : ResolveCache) :
    RcacheLookupResult × ResolveCache :=
  ((lookupSlots name now c.slots).1, ⟨(lookupSlots name now c.slots).2, by
    rw [length_lookupSlots, c.length_slots]⟩)

/-- What a store writes to its slot.  The key has room for 63 bytes. -/
def storedEntry (name : Bytes) (rp : Option ResolvedPeer) (negative : Bool) (now : ℤ) :
    ResolveCacheEntry :=
  ⟨true, negative, now, name.take 63, rp.getD .zero⟩

def rcacheStoreEntry (name : Bytes) (rp : Option ResolvedPeer) (negative : Bool) (now : ℤ)
    (c : ResolveCache) : ResolveCache :=
  c.set (freeOrOldest ResolveCacheEntry.valid ResolveCacheEntry.fetchedAt c.slots)
    (storedEntry name rp negative now)

def rcacheStore (name : Bytes) (rp : ResolvedPeer) : ℤ → ResolveCache → ResolveCache :=
  rcacheStoreEntry name (some rp) false

def rcacheStoreNegative (name : Bytes) : ℤ → ResolveCache → ResolveCache :=
  rcacheStoreEntry name none true

/-! ## The request and its answer -/

/-- `copy_small` into `cap` bytes; `NULL` is copied as the empty string. -/
def copySmall (cap : ℕ) (src : Option Bytes) : Bytes :=
  (cstr (src.getD [])).take (cap - 1)

def bareName (username : Bytes) : Bytes :=
  if (cstr username).head? = some 64 then (cstr username).tail else cstr username

/-- `build_request`, into `cap` bytes. -/
def buildResolveRequest (name : Bytes) (cap : ℕ) : Option Bytes :=
  let w := tlWriteString (tlWriteUint32 [] crcContactsResolveUsername) (bareName name)
  if w.length ≤ cap then some w else none

def readNameIf (c : Bool) (cap : ℕ) (r : TlReader) : Bytes × TlReader :=
  if c then (copySmall cap (tlReadString r).1, (tlReadString r).2) else ([], r)

def parseUserPrefix (r : TlReader) (out : ResolvedPeer) : ResolvedPeer × TlReader :=
  let flags := tlReadUint32 r
  let flags2 := tlReadUint32 flags.2
  let id := tlReadInt64 flags2.2
  let out := { out with id := id.1 }
  let hash := tlReadInt64 id.2
  let out := if hasFlag flags.1 0 then { out with accessHash := hash.1, haveHash := true } else out
  let r := if hasFlag flags.1 0 then hash.2 else id.2
  let first := readNameIf (hasFlag flags.1 1) 64 r
  let last := readNameIf (hasFlag flags.1 2) 64 first.2
  let user := readNameIf (hasFlag flags.1 3) 64 last.2
  let out := if hasFlag flags.1 3 then { out with username := user.1 } else out
  let space := if first.1 ≠ [] ∧ last.1 ≠ [] then ascii " " else []
  (if first.1 ≠ [] ∨ last.1 ≠ [] then { out with title := (first.1 ++ space ++ last.1).take 127 }
    else out, user.2)

def parseChannelPrefix (r : TlReader) (out : ResolvedPeer) : ResolvedPeer × TlReader :=
  let flags := tlReadUint32 r
  let flags2 := tlReadUint32 flags.2
  let id := tlReadInt64 flags2.2
  let out := { out with id := id.1 }
  let hash := tlReadInt64 id.2
  if hasFlag flags.1 13 then ({ out with accessHash := hash.1, haveHash := true }, hash.2)
  else (out, id.2)

/-- The loops over the chats and over the users of the answer.  Each of them is left after the first
object, whatever it is. -/
def readFirstObject (isKnown : UInt32 → Bool)
    (parsePrefix : TlReader → ResolvedPeer → ResolvedPeer × TlReader) (n : UInt32) (r : TlReader)
    (out : ResolvedPeer) : ResolvedPeer × TlReader :=
  if n = 0 then (out, r) else
  let crc := tlReadUint32 r
  if isKnown crc.1 then
    let tmp := parsePrefix crc.2 .zero
    (if tmp.1.id = out.id then
      { out with accessHash := tmp.1.accessHash, haveHash := tmp.1.haveHash } else out, tmp.2)
  else (out, crc.2)

/-- The `kind` that goes with the constructor of a peer. -/
def resolvedKind (pcrc : UInt32) : Option ResolvedKind :=
  if pcrc = tlPeerUser then some .user
  else if pcrc = tlPeerChat then some .chat
  else if pcrc = tlPeerChannel then some .channel
  else none

/-- The part of `domain_resolve_username` that reads a `contacts.resolvedPeer`. -/
def readResolvedPeer (out : ResolvedPeer) (resp : Bytes) : Option ResolvedPeer := do
  let pcrc := tlReadUint32 (tlReadUint32 (tlReaderInit resp)).2
  let kind ← resolvedKind pcrc.1
  let id := tlReadInt64 pcrc.2
  let out := { out with kind := kind, id := id.1 }
  let vec := tlReadUint32 id.2
  if vec.1 ≠ tlVector then none else
  let nchats := tlReadUint32 vec.2
  let chats := readFirstObject (· = tlChannel) parseChannelPrefix nchats.1 nchats.2 out
  let vec := tlReadUint32 chats.2
  if vec.1 ≠ tlVector then some chats.1 else
  let nusers := tlReadUint32 vec.2
  some (readFirstObject (fun crc => crc = tlUser ∨ crc = tlUser2) parseUserPrefix nusers.1 nusers.2
    chats.1).1

/-- What the outcome of the call comes to: nothing is known, there is no such name, or its peer. -/
inductive ResolveReply where
  | failed
  | notFound
  | found (rp : ResolvedPeer)
  deriving DecidableEq

/-- The part of `domain_resolve_username` behind `api_call`, for the outcome of that call. -/
def readResolveReply (bare : Bytes) : Option Bytes → ResolveReply
  | none => .failed
  | some resp =>
    if resp.length < 4 then .failed
    else if u32At resp 0 = crcRpcError then
      let errorMsg := (rpcParseError resp).elim [] RpcError.errorMsg
      if (ascii "USERNAME_").isPrefixOf errorMsg then .notFound else .failed
    else if u32At resp 0 ≠ tlContactsResolvedPeer then .failed
    else
      match readResolvedPeer { ResolvedPeer.zero with username := copySmall 64 bare } resp with
      | none => .failed
      | some rp => .found rp

/-! ## Resolving -/

/-- A call: the name, what `api_call` returns for a query, and the clock at the lookup and at the
store. -/
structure ResolveCall where
  username : Bytes
  api : Bytes → Option Bytes
  lookupAt : ℤ
  storeAt : ℤ

/-- `domain_resolve_username`, with `none` for -1. -/
def domainResolveUsername (q : ResolveCall) (c : ResolveCache) :
    Option ResolvedPeer × ResolveCache :=
  let bare := bareName q.username
  match rcacheLookupV2 bare q.lookupAt c with
  | (.hitPos cached, c) => (some cached, c)
  | (.hitNeg, c) => (none, c)
  | (.miss, c) =>
    match buildResolveRequest q.username 128 with
    | none => (none, c)
    | some query =>
      match readResolveReply bare (q.api query) with
      | .failed => (none, c)
      | .notFound => (none, rcacheStoreNegative bare q.storeAt c)
      | .found rp => (some rp, rcacheStore bare rp q.storeAt c)

/-! ## Histories -/

/-- What was stored: the name that was asked for, the answer and the clock. -/
structure Stored where
  name : Bytes
  negative : Bool
  value : ResolvedPeer
  fetchedAt : ℤ
  deriving DecidableEq

def ResolveCacheEntry.stored (e : ResolveCacheEntry) : Stored :=
  ⟨e.key, e.negative, e.value, e.fetchedAt⟩

def Stored.entry (s : Stored) : ResolveCacheEntry :=
  storedEntry s.name (some s.value) s.negative s.fetchedAt

namespace ResolveCall

def bare (q : ResolveCall) : Bytes :=
  bareName q.username

def lookup (q : ResolveCall) (c : ResolveCache) : RcacheLookupResult × ResolveCache :=
  rcacheLookupV2 q.bare q.lookupAt c

def stores (q : ResolveCall) (c : ResolveCache) : Option Stored :=
  match (q.lookup c).1, buildResolveRequest q.username 128 with
  | .miss, some query =>
    match readResolveReply q.bare (q.api query) with
    | .failed => none
    | .notFound => some ⟨q.bare, true, .zero, q.storeAt⟩
    | .found rp => some ⟨q.bare, false, rp, q.storeAt⟩
  | _, _ => none

end ResolveCall

inductive ResolverOp where
  | call (q : ResolveCall)
  | flush

/-- The cache, and the log of all that was stored, the newest first. -/
structure ResolverRun where
  cache : ResolveCache
  log : List Stored

def ResolverRun.start : ResolverRun :=
  ⟨.empty, []⟩

def resolverStep (st : ResolverRun) : ResolverOp → ResolverRun
  | .call q => ⟨(domainResolveUsername q st.cache).2, (q.stores st.cache).toList ++ st.log⟩
  | .flush => ⟨.empty, st.log⟩

/-- What a call owes to the log: a hit is the newest record for the name and not too old, the keys
in use are different, and a store into a full table takes the place of the oldest entry. -/
structure ResolverStepLaw (st : ResolverRun) (q : ResolveCall) : Prop where
  hit : (q.lookup st.cache).1 ≠ .miss →
    ∃ s, lookupKey Stored.name st.log q.bare = some s ∧
      q.lookupAt - s.fetchedAt < resolveTtl s.negative ∧
      (domainResolveUsername q st.cache).1 = if s.negative then none else some s.value
  distinct : DistinctLive ResolveCacheEntry.valid ResolveCacheEntry.key st.cache.slots
  evicts : ∀ s, q.stores st.cache = some s → (∀ e ∈ (q.lookup st.cache).2.slots, e.valid = true) →
    ∃ i e, (q.lookup st.cache).2.slots[i]? = some e ∧
      (∀ e' ∈ (q.lookup st.cache).2.slots, e.fetchedAt ≤ e'.fetchedAt) ∧
      (domainResolveUsername q st.cache).2 = (q.lookup st.cache).2.set i s.entry

def ResolverLaw (ops : List ResolverOp) : Prop :=
  ∀ x ∈ trace resolverStep .start ops, ∀ q, x.2 = .call q → ResolverStepLaw x.1 q

/-! ### A lookup -/

section Lookup

variable {name : Bytes} {now : ℤ} {l : List ResolveCacheEntry}

theorem lookupSlots_cons_skip {e : ResolveCacheEntry} (h : e.valid = true → e.key ≠ name) :
    lookupSlots name now (e :: l) =
      ((lookupSlots name now l).1, e :: (lookupSlots name now l).2) := by
  rw [lookupSlots, if_pos]
  rcases hv : e.valid with _ | _
  · rfl
  · exact decide_eq_true (h hv)

theorem lookupSlots_cons_here {e : ResolveCacheEntry} (hv : e.valid = true) (hk : e.key = name) :
    lookupSlots name now (e :: l) =
      if now - e.fetchedAt ≥ resolveTtl e.negative then (.miss, { e with valid := false } :: l)
      else (if e.negative then .hitNeg else .hitPos e.value, e :: l) := by
  rw [lookupSlots, if_neg]
  rw [hv, decide_eq_false (not_not.mpr hk)]
  exact Bool.false_ne_true

theorem lookupSlots_absent (h : ∀ e ∈ l, e.valid = true → e.key ≠ name) :
    lookupSlots name now l = (.miss, l) := by
  induction l with
  | nil => rfl
  | cons e es ih =>
    rw [forall_mem_cons] at h
    rw [lookupSlots_cons_skip h.1, ih h.2]

theorem rcacheLookupV2_absent {c : ResolveCache}
    (h : ∀ e ∈ c.slots, e.valid = true → e.key ≠ name) :
    rcacheLookupV2 name now c = (.miss, c) := by
  have habs : lookupSlots name now c.slots = (.miss, c.slots) := lookupSlots_absent h
  have hfst : (lookupSlots name now c.slots).1 = .miss := by rw [habs]
  have hsnd : (lookupSlots name now c.slots).2 = c.slots := by rw [habs]
  exact Prod.ext hfst (ResolveCache.ext hsnd)

theorem lookupSlots_cases (e : ResolveCacheEntry) (name : Bytes) :
    (e.valid = true → e.key ≠ name) ∨ (e.valid = true ∧ e.key = name) := by
  by_cases h : e.valid = true ∧ e.key = name
  · exact Or.inr h
  · exact Or.inl fun hv hk => h ⟨hv, hk⟩

theorem lookupSlots_slots (name : Bytes) (now : ℤ) (l : List ResolveCacheEntry) :
    (lookupSlots name now l).2 = l ∨
      ∃ i e, e.valid = false ∧ (lookupSlots name now l).2 = l.set i e := by
  induction l with
  | nil => exact Or.inl rfl
  | cons e es ih =>
    obtain hskip | ⟨hv, hk⟩ := lookupSlots_cases e name
    · rw [lookupSlots_cons_skip hskip]
      obtain ih | ⟨i, e', he', ih⟩ := ih
      · exact Or.inl (congrArg _ ih)
      · exact Or.inr ⟨i + 1, e', he', congrArg _ ih⟩
    · rw [lookupSlots_cons_here hv hk]
      split_ifs
      · exact Or.inr ⟨0, _, rfl, rfl⟩
      · exact Or.inl rfl
      · exact Or.inl rfl

theorem lookupSlots_hit (h : (lookupSlots name now l).1 ≠ .miss) :
    ∃ e ∈ l, e.valid = true ∧ e.key = name ∧ now - e.fetchedAt < resolveTtl e.negative ∧
      (lookupSlots name now l).1 = if e.negative then .hitNeg else .hitPos e.value := by
  induction l with
  | nil => exact absurd rfl h
  | cons e es ih =>
    obtain hskip | ⟨hv, hk⟩ := lookupSlots_cases e name
    · rw [lookupSlots_cons_skip hskip] at h ⊢
      obtain ⟨e', he', hrest⟩ := ih h
      exact ⟨e', mem_cons_of_mem e he', hrest⟩
    · rw [lookupSlots_cons_here hv hk] at h ⊢
      by_cases hold : now - e.fetchedAt ≥ resolveTtl e.negative
      · rw [if_pos hold] at h
        exact absurd rfl h
      · rw [if_neg hold]
        exact ⟨e, mem_cons_self, hv, hk, not_le.mp hold, rfl⟩

theorem lookupSlots_miss (hd : DistinctLive ResolveCacheEntry.valid ResolveCacheEntry.key l)
    (h : (lookupSlots name now l).1 = .miss) :
    ∀ e ∈ (lookupSlots name now l).2, e.valid = true → e.key ≠ name := by
  induction l with
  | nil =>
    intro e he
    exact absurd he not_mem_nil
  | cons e es ih =>
    obtain ⟨hhead, htail⟩ := pairwise_cons.mp hd
    obtain hskip | ⟨hv, hk⟩ := lookupSlots_cases e name
    · rw [lookupSlots_cons_skip hskip] at h ⊢
      exact forall_mem_cons.mpr ⟨hskip, ih htail h⟩
    · rw [lookupSlots_cons_here hv hk] at h ⊢
      by_cases hold : now - e.fetchedAt ≥ resolveTtl e.negative
      · rw [if_pos hold]
        refine forall_mem_cons.mpr ⟨fun hdead => absurd hdead Bool.false_ne_true, ?_⟩
        intro e' he' hv' hk'
        exact hhead e' he' hv hv' (hk.trans hk'.symm)
      · rw [if_neg hold] at h
        cases hneg : e.negative <;> rw [hneg] at h <;> cases h

end Lookup

/-! ### A call -/

section Call

variable {q : ResolveCall} {c : ResolveCache}

def ResolveCache.victim (c : ResolveCache) : ℕ :=
  freeOrOldest ResolveCacheEntry.valid ResolveCacheEntry.fetchedAt c.slots

theorem domainResolveUsername_cache (q : ResolveCall) (c : ResolveCache) :
    (domainResolveUsername q c).2 =
      (q.stores c).elim (q.lookup c).2 fun s =>
        (q.lookup c).2.set (q.lookup c).2.victim s.entry := by
  rw [domainResolveUsername, ResolveCall.stores]
  rcases hl : q.lookup c with ⟨_ | _ | _, c'⟩ <;>
    rw [ResolveCall.lookup, ResolveCall.bare] at hl <;> rw [hl]
  · rcases buildResolveRequest q.username 128 with _ | query
    · rfl
    · dsimp only
      rw [ResolveCall.bare]
      rcases readResolveReply (bareName q.username) (q.api query) with _ | _ | _ <;> rfl
  · rfl
  · rfl

theorem ResolveCall.stores_eq_some {s : Stored} (h : q.stores c = some s) :
    (q.lookup c).1 = .miss ∧ (buildResolveRequest q.username 128).isSome ∧ s.name = q.bare := by
  rw [ResolveCall.stores] at h
  rcases hl : (q.lookup c).1 with _ | _ | _ <;> rw [hl] at h
  · rcases hb : buildResolveRequest q.username 128 with _ | query <;> rw [hb] at h
    · cases h
    · dsimp only at h
      rcases hr :
        readResolveReply q.bare (q.api query) with _ | _ | _ <;> rw [hr] at h <;> cases h <;>
        exact ⟨rfl, rfl, rfl⟩
  · cases h
  · cases h

theorem domainResolveUsername_hit {e : ResolveCacheEntry}
    (h : (q.lookup c).1 = if e.negative then .hitNeg else .hitPos e.value) :
    (domainResolveUsername q c).1 = if e.negative then none else some e.value := by
  rw [domainResolveUsername]
  rcases hl : q.lookup c with ⟨x, c'⟩
  rw [hl] at h
  rw [ResolveCall.lookup, ResolveCall.bare] at hl
  rw [hl]
  dsimp only at h ⊢
  rw [h]
  cases e.negative <;> rfl

end Call

/-! ### Names -/

theorem cstr_bareName (username : Bytes) : cstr (bareName username) = bareName username := by
  refine cstr_eq_self fun h => zero_not_mem_cstr username ?_
  rw [bareName] at h
  split_ifs at h
  · exact mem_of_mem_tail h
  · exact h

theorem buildResolveRequest_isSome {username : Bytes} :
    (buildResolveRequest username 128).isSome ↔ (bareName username).length ≤ 123 := by
  rw [buildResolveRequest, tlWriteString, tlWriteBytes_eq, cstr_bareName, tlWriteUint32,
    nil_append, length_append, length_u32Bytes, length_tlBytes]
  split_ifs <;> simp only [Option.isSome_some, Option.isSome_none] <;> simp <;> omega

/-- The names whose entries are found again. -/
def ResolverOp.Fits : ResolverOp → Prop
  | .call q => q.bare.length ≤ 63 ∨ 123 < q.bare.length
  | .flush => True

/-! ### The law -/

def ResolverRun.Good (st : ResolverRun) : Prop :=
  Remembers ResolveCacheEntry.valid ResolveCacheEntry.stored Stored.name st.cache.slots st.log

theorem ResolverRun.good_start : ResolverRun.start.Good :=
  Remembers.of_free fun e he => by rw [eq_of_mem_replicate he]; rfl

section Good

variable {st : ResolverRun} {q : ResolveCall}

theorem ResolverRun.Good.lookup (h : st.Good) (q : ResolveCall) :
    ResolverRun.Good ⟨(q.lookup st.cache).2, st.log⟩ := by
  obtain heq | ⟨i, e, he, heq⟩ := lookupSlots_slots q.bare q.lookupAt st.cache.slots
  · show Remembers _ _ _ (lookupSlots _ _ _).2 _
    rw [heq]
    exact h
  · show Remembers _ _ _ (lookupSlots _ _ _).2 _
    rw [heq]
    exact h.free i he

theorem Stored.stored_entry {s : Stored} (h : s.name.length ≤ 63) : s.entry.stored = s := by
  show (⟨s.name.take 63, _, _, _⟩ : Stored) = s
  rw [take_of_length_le h]
  rfl

theorem ResolverRun.Good.step {op : ResolverOp} (hop : op.Fits) (h : st.Good) :
    (resolverStep st op).Good := by
  cases op with
  | flush => exact Remembers.of_free fun e he => by rw [eq_of_mem_replicate he]; rfl
  | call q =>
    have hlook := h.lookup q
    show ResolverRun.Good ⟨(domainResolveUsername q st.cache).2, _⟩
    rw [domainResolveUsername_cache]
    rcases hs : q.stores st.cache with _ | s
    · exact hlook
    · obtain ⟨hmiss, hbuilt, hname⟩ := ResolveCall.stores_eq_some hs
      have hlen : s.name.length ≤ 63 := by
        have hsent := buildResolveRequest_isSome.mp hbuilt
        have hfits : q.bare.length ≤ 63 ∨ 123 < q.bare.length := hop
        rw [hname]
        rw [ResolveCall.bare] at hfits ⊢
        omega
      have hrec := Stored.stored_entry hlen
      have hstore := Remembers.store hlook (q.lookup st.cache).2.victim (e := s.entry)
        fun e he hv => by
          rw [hrec, hname]
          exact lookupSlots_miss h.distinct hmiss e he hv
      rwa [hrec] at hstore

theorem ResolverRun.Good.law (h : st.Good) (q : ResolveCall) : ResolverStepLaw st q where
  hit hhit := by
    obtain ⟨e, he, hv, hk, hage, hres⟩ := lookupSlots_hit hhit
    have hnew := h.newest e he hv
    refine ⟨e.stored, ?_, hage, domainResolveUsername_hit hres⟩
    rw [← hk]
    exact hnew
  distinct := h.distinct
  evicts s hs hfull := by
    obtain ⟨e, he, hold⟩ := freeOrOldest_oldest ResolveCacheEntry.valid
      ResolveCacheEntry.fetchedAt (q.lookup st.cache).2.length_pos hfull
    refine ⟨_, e, he, hold, ?_⟩
    rw [domainResolveUsername_cache, hs]
    rfl

end Good

theorem resolverLaw_of_fits {ops : List ResolverOp} (h : ∀ op ∈ ops, op.Fits) :
    ResolverLaw ops := by
  intro x hx q _
  exact (trace_invariant (fun _ _ hop hst => hst.step hop) ResolverRun.good_start h x hx).1.law q

/-! ### Names that are too long -/

/-- `USERNAME_NOT_OCCUPIED`. -/
def notOccupied : Bytes :=
  tlWriteString (tlWriteInt32 (tlWriteUint32 [] crcRpcError) 400) (ascii "USERNAME_NOT_OCCUPIED")

/-- A call for a name of `L` letters that nobody has. -/
def nobodyCall (L : ℕ) : ResolveCall :=
  ⟨List.replicate L 97, fun _ => some notOccupied, 0, 0⟩

section Long

variable {L : ℕ}

theorem bare_nobodyCall (L : ℕ) : (nobodyCall L).bare = replicate L 97 := by
  have hcstr : cstr (replicate L 97) = replicate L 97 :=
    cstr_eq_self fun h => absurd (eq_of_mem_replicate h) (by decide)
  rw [nobodyCall, ResolveCall.bare, bareName, hcstr, if_neg]
  cases L with
  | zero => exact Option.some_ne_none _ ∘ Eq.symm
  | succ L => exact fun h => absurd (Option.some_inj.mp h) (by decide)

def nobodyStored (L : ℕ) : Stored :=
  ⟨List.replicate L 97, true, .zero, 0⟩

/-- A name that is too long is not found and is stored once more. -/
theorem cache_nobodyCall (h : 63 < L) (h' : L ≤ 123) {c : ResolveCache}
    (hc : ∀ e ∈ c.slots, e.valid = true → e.key.length ≤ 63) :
    (domainResolveUsername (nobodyCall L) c).2 = c.set c.victim (nobodyStored L).entry := by
  have hlook : (nobodyCall L).lookup c = (.miss, c) := by
    rw [ResolveCall.lookup, bare_nobodyCall]
    refine rcacheLookupV2_absent fun e he hv hk => ?_
    have hlen := hc e he hv
    rw [hk, length_replicate] at hlen
    omega
  have hsent : (buildResolveRequest (nobodyCall L).username 128).isSome := by
    rw [buildResolveRequest_isSome]
    have hbare := bare_nobodyCall L
    rw [ResolveCall.bare] at hbare
    rwa [hbare, length_replicate]
  obtain ⟨query, hquery⟩ := Option.isSome_iff_exists.mp hsent
  have hreply : readResolveReply (nobodyCall L).bare (some notOccupied) = .notFound := by
    have hshort : ¬ notOccupied.length < 4 := by decide +kernel
    have hcrc : u32At notOccupied 0 = crcRpcError := by decide +kernel
    have hmsg : (ascii "USERNAME_").isPrefixOf
        ((rpcParseError notOccupied).elim [] RpcError.errorMsg) = true := by decide +kernel
    rw [readResolveReply, if_neg hshort, if_pos hcrc]
    rw [if_pos hmsg]
  have hstores : (nobodyCall L).stores c = some (nobodyStored L) := by
    rw [ResolveCall.stores, hlook, hquery]
    dsimp only
    rw [show (nobodyCall L).api query = some notOccupied from rfl, hreply, bare_nobodyCall]
    rfl
  rw [domainResolveUsername_cache, hstores, hlook]
  rfl

/-- After two calls for such a name two entries in use have its first letters as their key. -/
theorem not_resolverLaw_nobodyCall (h : 63 < L) (h' : L ≤ 123) :
    ¬ ResolverLaw [.call (nobodyCall L), .call (nobodyCall L), .call (nobodyCall L)] := by
  intro hlaw
  have hkey : (nobodyStored L).entry.key.length ≤ 63 := by
    show ((replicate L 97).take 63).length ≤ 63
    rw [length_take]
    omega
  have hone := cache_nobodyCall h h' (c := .empty) fun e he hv => by
    rw [eq_of_mem_replicate he] at hv
    cases hv
  have htwo := cache_nobodyCall h h' (c := ResolveCache.empty.set 0 (nobodyStored L).entry)
    fun e he hv => by
      obtain he | rfl := mem_or_eq_of_mem_set he
      · rw [eq_of_mem_replicate he] at hv
        cases hv
      · exact hkey
  have hdistinct := (hlaw (resolverStep (resolverStep .start (.call (nobodyCall L)))
    (.call (nobodyCall L)), .call (nobodyCall L)) (by simp [trace]) _ rfl).distinct
  rw [show
    (resolverStep (resolverStep .start (.call (nobodyCall L))) (.call (nobodyCall L))).cache =
      (domainResolveUsername (nobodyCall L)
        (domainResolveUsername (nobodyCall L) .empty).2).2 from rfl, hone] at hdistinct
  rw [show ResolveCache.empty.victim = 0 from rfl, htwo] at hdistinct
  exact (pairwise_cons.mp hdistinct).1 _ mem_cons_self rfl rfl rfl

end Long

/-- **The law of the resolver** holds along every history of calls for names with certain lengths,
exactly if none of these is between 64 and 123. -/
theorem resolverLaw_iff (S : Set ℕ) :
    (∀ ops, (∀ q, ResolverOp.call q ∈ ops → q.bare.length ∈ S) → ResolverLaw ops) ↔
      ∀ L ∈ S, L ≤ 63 ∨ 123 < L := by
  constructor
  · intro h L hL
    by_contra hlong
    refine not_resolverLaw_nobodyCall (L := L) (by omega) (by omega) (h _ fun q hq => ?_)
    have hq : q = nobodyCall L := by simpa using hq
    rwa [hq, bare_nobodyCall, length_replicate]
  · intro h ops hops
    refine resolverLaw_of_fits fun op hop => ?_
    cases op with
    | call q => exact h _ (hops q hop)
    | flush => exact trivial

def resolvedUser (id : Int64) : Bytes :=
  u32Bytes tlContactsResolvedPeer ++ u32Bytes tlPeerUser ++ u64Bytes id.toUInt64 ++
    u32Bytes tlVector ++ u32Bytes 0 ++ u32Bytes tlVector ++ u32Bytes 0

/-- A name of 64 letters is resolved, then the one of 63.  The second call finds the answer of the
first, and nothing was ever stored for its name. -/
theorem resolver_answers_for_another_name :
    ¬ ∀ ops, (∀ q, ResolverOp.call q ∈ ops → (buildResolveRequest q.username 128).isSome) →
      ResolverLaw ops := by
  intro h
  let q (L : ℕ) : ResolveCall := ⟨replicate L 97, fun _ => some (resolvedUser 8001), 0, 0⟩
  have hsent : ∀ q', ResolverOp.call q' ∈ [.call (q 64), .call (q 63)] →
      (buildResolveRequest q'.username 128).isSome := by
    intro q' hq'
    obtain rfl | rfl : q' = q 64 ∨ q' = q 63 := by simpa using hq'
    · decide +kernel
    · decide +kernel
  have hlaw := h _ hsent (resolverStep .start (.call (q 64)), .call (q 63)) (by simp [trace]) _ rfl
  obtain ⟨s, hs, -⟩ := hlaw.hit (by decide +kernel)
  have hnone :
      lookupKey Stored.name (resolverStep .start (.call (q 64))).log (q 63).bare = none := by
    decide +kernel
  rw [hnone] at hs
  cases hs

end TgCli.Domain
