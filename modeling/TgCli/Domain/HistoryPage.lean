import TgCli.Domain.HistoryFetch
import TgCli.Domain.MessageLayout

/-!
# What comes of a page of messages

`messages.messages`, `messages.messagesSlice` and `messages.channelMessages` carry a vector of
messages behind a header, and the header has fields that are there or not: `next_rate` behind flag 0
of a slice, `offset_id_offset` behind flag 2.  `domain_get_history` and the two searches step over
the counters that are always there, and not over these.  So a header that has one of them is taken
for the vector, and the call fails.

`returnsFirst_iff` says for every page, every limit and each of the three calls when the first
messages of the page come back.
-/

namespace TgCli.Domain

open Option List Lib TgCli.Core Infrastructure

/-! ## Replies -/

/-- The header of a reply, with its optional fields behind their flags. -/
inductive MessagesHeader where
  | messages
  | slice (flags : UInt32) (count : Int32) (nextRate : hasFlag flags 0 = true → Int32)
      (offsetIdOffset : hasFlag flags 2 = true → Int32)
  | channel (flags : UInt32) (pts count : Int32) (offsetIdOffset : hasFlag flags 2 = true → Int32)

namespace MessagesHeader

def crc : MessagesHeader → UInt32
  | messages => tlMessagesMessages
  | slice _ _ _ _ => tlMessagesMessagesSlice
  | channel _ _ _ _ => tlMessagesChannelMessages

def counters : MessagesHeader → Bytes
  | messages => []
  | slice flags count _ _ => u32Bytes flags ++ u32Bytes count.toUInt32
  | channel flags pts count _ =>
    u32Bytes flags ++ (u32Bytes pts.toUInt32 ++ u32Bytes count.toUInt32)

def optional : MessagesHeader → Bytes
  | messages => []
  | slice flags _ nextRate offsetIdOffset =>
    whenSet (hasFlag flags 0) (fun h => u32Bytes (nextRate h).toUInt32) ++
      whenSet (hasFlag flags 2) fun h => u32Bytes (offsetIdOffset h).toUInt32
  | channel flags _ _ offsetIdOffset =>
    whenSet (hasFlag flags 2) fun h => u32Bytes (offsetIdOffset h).toUInt32

theorem crc_known (h : MessagesHeader) : h.crc ≠ crcRpcError ∧
    ¬ (h.crc ≠ tlMessagesMessages ∧ h.crc ≠ tlMessagesMessagesSlice ∧
      h.crc ≠ tlMessagesChannelMessages) := by
  cases h with
  | messages => decide
  | slice => rw [crc]; decide
  | channel => rw [crc]; decide

theorem optional_cases (h : MessagesHeader) :
    h.optional = [] ∨ (∃ x, h.optional = u32Bytes x) ∨
      ∃ x y, h.optional = u32Bytes x ++ u32Bytes y := by
  cases h with
  | messages => exact .inl rfl
  | slice flags count nextRate offsetIdOffset =>
    rw [optional, whenSet, whenSet]
    split_ifs with h0 h2 h2
    · exact .inr (.inr ⟨_, _, rfl⟩)
    · exact .inr (.inl ⟨_, append_nil _⟩)
    · exact .inr (.inl ⟨_, rfl⟩)
    · exact .inl rfl
  | channel flags pts count offsetIdOffset =>
    rw [optional, whenSet]
    split_ifs
    · exact .inr (.inl ⟨_, rfl⟩)
    · exact .inl rfl

end MessagesHeader

structure MessagesReply where
  header : MessagesHeader
  messages : List TlMessage
  tail : Bytes

namespace MessagesReply

variable (reply : MessagesReply)

def vectorBytes : Bytes :=
  u32Bytes tlVector ++ (u32Bytes (UInt32.ofNat reply.messages.length) ++
    (reply.messages.flatMap TlMessage.bytes ++ reply.tail))

def bytes : Bytes :=
  u32Bytes reply.header.crc ++
    (reply.header.counters ++ (reply.header.optional ++ reply.vectorBytes))

/-- The header is stepped over: it has no optional field, or there is nothing to be missed and the
first optional field happens to be the constructor of a vector. -/
def HeaderRead : Prop :=
  reply.header.optional = [] ∨
    (reply.messages = [] ∧ reply.header.optional.take 4 = u32Bytes tlVector)

theorem length_messages_le : reply.messages.length * 4 ≤ reply.bytes.length := by
  have hflat : ∀ ms : List TlMessage, ms.length * 4 ≤ (ms.flatMap TlMessage.bytes).length := by
    intro ms
    induction ms with
    | nil => exact Nat.zero_le _
    | cons m ms ih =>
      obtain ⟨crc, b, hm⟩ := m.bytes_cons
      rw [flatMap_cons, length_append, hm, length_append, length_u32Bytes,
        length_cons]
      omega
  have h := hflat reply.messages
  rw [bytes, vectorBytes]
  simp only [length_append]
  omega

theorem le_length_bytes : 12 ≤ reply.bytes.length := by
  rw [bytes, vectorBytes]
  simp only [length_append, length_u32Bytes]
  omega

end MessagesReply

/-! ## The loop -/

section Loop

variable {keepsInfo : Bool}

theorem isKept_of_id {e : HistoryEntry} (h : e.view.id ≠ 0) : e.isKept = true :=
  decide_eq_true (.inl h)

/-- **The loop over the messages.**  The first messages, as many as there is room for, come out in
order exactly if each of them is readable. -/
theorem messageLoop_eq_iff (ms : List TlMessage) (hid : ∀ m ∈ ms, m.id ≠ 0) (room : ℕ)
    {r : TlReader} {t : Bytes} (hr : r.rest = ms.flatMap TlMessage.bytes ++ t) :
    (messageLoop (pageParser keepsInfo) ms.length room r).map HistoryEntry.view =
      (ms.take room).map TlMessage.view ↔ ∀ m ∈ ms.take room, m.Readable := by
  induction ms generalizing room r with
  | nil => simp [messageLoop]
  | cons m ms ih =>
    cases room with
    | zero => simp [messageLoop]
    | succ room =>
      rw [flatMap_cons, append_assoc] at hr
      have hm : m.id ≠ 0 := hid m mem_cons_self
      rw [length_cons, messageLoop, take_succ_cons, map_cons, forall_mem_cons]
      by_cases hread : m.Readable
      · obtain ⟨st, hst, hrest, hview⟩ := (m.reads keepsInfo hread).run hr view_zero
        have hkept : st.entry.isKept = true := isKept_of_id (by rw [hview]; exact hm)
        rw [hst]
        dsimp only [isNone_some]
        rw [if_pos hkept, if_neg Bool.false_ne_true, map_cons, hview, cons_inj_right,
          ih (fun m' hm' => hid m' (mem_cons_of_mem m hm')) room (hrest rfl)]
        exact ⟨fun h => ⟨hread, h⟩, fun h => h.2⟩
      · obtain ⟨v, o, hvid, hvtext, hrun⟩ := m.misread keepsInfo hread
        obtain ⟨st, hst, -, hview⟩ := hrun.run hr view_zero
        have hkept : st.entry.isKept = true := isKept_of_id (by rw [hview, hvid]; exact hm)
        rw [hst, if_pos hkept, map_cons, hview]
        refine ⟨fun h => ?_, fun h => absurd h.1 hread⟩
        rw [(cons.inj h).1] at hvtext
        exact absurd rfl hvtext

theorem messageLoop_of_unknown {x : UInt32} (hx : x ≠ tlMessageEmpty ∧ x ≠ tlMessage ∧
    x ≠ tlMessageService) {r : TlReader} {t : Bytes} (hr : r.rest = u32Bytes x ++ t)
    (count room : ℕ) : messageLoop (pageParser keepsInfo) count room r = [] := by
  have hbreaks : Scan.Breaks (pageParser keepsInfo) (u32Bytes x ++ []) .zero .zero := by
    refine takes_parse ?_
    rw [parseConstructed, if_neg hx.1, if_pos hx.2]
    exact fun st _ _ hv => ⟨st, rfl, fun h => absurd h Bool.false_ne_true, hv⟩
  rw [← append_nil (u32Bytes x)] at hr
  obtain ⟨st, hst, -, hview⟩ := hbreaks.run hr view_zero
  have hkept : st.entry.isKept = false := by
    have hid : st.entry.id = 0 := congrArg MessageView.id hview
    have htext : st.entry.text = [] := congrArg MessageView.text hview
    exact decide_eq_false (by rw [hid, htext]; simp)
  cases count with
  | zero => rw [messageLoop]
  | succ count =>
    cases room with
    | zero => rfl
    | succ room =>
      rw [messageLoop, hst]
      rw [hkept, if_neg Bool.false_ne_true]
      rfl

end Loop

/-! ## The header -/

section Header

variable (h : MessagesHeader)

theorem readCounters_rest {r : TlReader} {t : Bytes} (hr : r.rest = h.counters ++ t) :
    (readCounters h.crc r).rest = t := by
  cases h with
  | messages => exact hr
  | slice flags count nextRate offsetIdOffset =>
    rw [MessagesHeader.counters, append_assoc] at hr
    obtain ⟨-, hr⟩ := tlReadUint32_of_rest hr
    exact (tlReadInt32_of_rest hr).2
  | channel flags pts count offsetIdOffset =>
    rw [MessagesHeader.counters, append_assoc, append_assoc] at hr
    obtain ⟨-, hr⟩ := tlReadUint32_of_rest hr
    obtain ⟨-, hr⟩ := tlReadInt32_of_rest hr
    exact (tlReadInt32_of_rest hr).2

theorem vectorAt_eq (t : Bytes) : ∃ r : TlReader, r.rest = t ∧
    vectorAt (u32Bytes h.crc ++ (h.counters ++ t)) = vectorFrom r := by
  obtain ⟨h1, hr⟩ :=
    tlReadUint32_of_rest (r := tlReaderInit (u32Bytes h.crc ++ (h.counters ++ t))) rfl
  refine ⟨_, readCounters_rest h hr, ?_⟩
  obtain ⟨herr, hknown⟩ := h.crc_known
  rw [vectorAt, h1, if_neg herr, if_neg hknown]

theorem vectorFrom_of_rest {r : TlReader} {n : UInt32} {t : Bytes}
    (hr : r.rest = u32Bytes tlVector ++ (u32Bytes n ++ t)) :
    ∃ r' : TlReader, r'.rest = t ∧ vectorFrom r = some (n.toNat, r') := by
  obtain ⟨h1, hr1⟩ := tlReadUint32_of_rest hr
  obtain ⟨h2, hr2⟩ := tlReadUint32_of_rest hr1
  refine ⟨_, hr2, ?_⟩
  rw [vectorFrom, h1, if_neg (fun h => h rfl)]
  dsimp only
  rw [h2]

theorem vectorFrom_of_ne {r : TlReader} {x : UInt32} {t : Bytes} (hr : r.rest = u32Bytes x ++ t)
    (hx : x ≠ tlVector) : vectorFrom r = none := by
  rw [vectorFrom, (tlReadUint32_of_rest hr).1, if_pos hx]

theorem count_unknown {n : ℕ} (hn : n ≤ 65536) :
    UInt32.ofNat n ≠ tlMessageEmpty ∧ UInt32.ofNat n ≠ tlMessage ∧
      UInt32.ofNat n ≠ tlMessageService := by
  have hnat : (UInt32.ofNat n).toNat = n :=
    UInt32.toNat_ofNat_of_lt' (lt_of_le_of_lt hn (by decide))
  have hne : ∀ crc : UInt32, 65536 < crc.toNat → UInt32.ofNat n ≠ crc := by
    intro crc hcrc he
    rw [← he, hnat] at hcrc
    omega
  exact ⟨hne _ (by decide), hne _ (by decide), hne _ (by decide)⟩

def pageBytes (n : ℕ) (t : Bytes) : Bytes :=
  u32Bytes h.crc ++ (h.counters ++ (h.optional ++
    (u32Bytes tlVector ++ (u32Bytes (UInt32.ofNat n) ++ t))))

/-- **An optional field in the header.**  It is taken for the vector.  Then there is no vector, or,
when the field is the constructor of a vector, its first element is no message. -/
theorem vectorAt_of_optional {n : ℕ} (hn : n ≤ 65536) (t : Bytes) (hopt : h.optional ≠ []) :
    if h.optional.take 4 = u32Bytes tlVector then
      ∃ (count : ℕ) (r : TlReader) (x : UInt32) (t' : Bytes),
        vectorAt (pageBytes h n t) = some (count, r) ∧ r.rest = u32Bytes x ++ t' ∧
          x ≠ tlMessageEmpty ∧ x ≠ tlMessage ∧ x ≠ tlMessageService
    else vectorAt (pageBytes h n t) = none := by
  obtain ⟨r, hr, hvector⟩ := vectorAt_eq h
    (h.optional ++ (u32Bytes tlVector ++ (u32Bytes (UInt32.ofNat n) ++ t)))
  rw [pageBytes, hvector]
  rcases h.optional_cases with hnil | ⟨x, hx⟩ | ⟨x, y, hxy⟩
  · exact absurd hnil hopt
  · rw [hx] at hr
    rw [hx, take_of_length_le (le_of_eq (length_u32Bytes x))]
    split_ifs with hvec
    · rw [hvec] at hr
      obtain ⟨r', hr', hread⟩ := vectorFrom_of_rest hr
      exact ⟨_, r', _, _, hread, hr', count_unknown hn⟩
    · exact vectorFrom_of_ne hr fun h => hvec (congrArg u32Bytes h)
  · rw [hxy, append_assoc] at hr
    rw [hxy, take_left' (length_u32Bytes x)]
    split_ifs with hvec
    · rw [hvec] at hr
      obtain ⟨r', hr', hread⟩ := vectorFrom_of_rest hr
      exact ⟨_, r', _, _, hread, hr', by decide⟩
    · exact vectorFrom_of_ne hr fun h => hvec (congrArg u32Bytes h)

theorem vectorAt_of_plain {n : ℕ} (hn : n < 2 ^ 32) (t : Bytes) (hopt : h.optional = []) :
    ∃ r : TlReader, r.rest = t ∧ vectorAt (pageBytes h n t) = some (n, r) := by
  obtain ⟨r, hr, hvector⟩ := vectorAt_eq h
    (h.optional ++ (u32Bytes tlVector ++ (u32Bytes (UInt32.ofNat n) ++ t)))
  have hr' := hr
  rw [hopt, nil_append] at hr'
  obtain ⟨r', hr', hread⟩ := vectorFrom_of_rest hr'
  rw [UInt32.toNat_ofNat_of_lt' hn] at hread
  exact ⟨r', hr', hvector.trans hread⟩

end Header

section Reply

variable {keepsInfo : Bool} (reply : MessagesReply)

theorem parseTop_of_optional (hlen : reply.messages.length ≤ 65536)
    (hopt : reply.header.optional ≠ []) (limit : ℕ) :
    parseTop (pageParser keepsInfo) limit reply.bytes =
      if reply.header.optional.take 4 = u32Bytes tlVector then some [] else none := by
  have hvector := vectorAt_of_optional reply.header hlen
    (reply.messages.flatMap TlMessage.bytes ++ reply.tail) hopt
  rw [parseTop, show reply.bytes = pageBytes _ _ _ from rfl]
  split_ifs at hvector ⊢ with hvec
  · obtain ⟨count, r, x, t, hat, hr, hx⟩ := hvector
    rw [hat, map_some, messageLoop_of_unknown hx hr]
  · rw [hvector, map_none]

theorem parseTop_of_plain (hlen : reply.messages.length < 2 ^ 32)
    (hopt : reply.header.optional = []) (parse : Prog Scan Unit) (limit : ℕ) :
    ∃ r : TlReader, r.rest = reply.messages.flatMap TlMessage.bytes ++ reply.tail ∧
      parseTop parse limit reply.bytes =
        some (messageLoop parse reply.messages.length limit r) := by
  obtain ⟨r, hr, hat⟩ := vectorAt_of_plain reply.header hlen
    (reply.messages.flatMap TlMessage.bytes ++ reply.tail) hopt
  refine ⟨r, hr, ?_⟩
  rw [parseTop, show reply.bytes = pageBytes _ _ _ from rfl, hat, map_some]

end Reply

/-! ## The calls -/

/-- A request for messages: the history of a peer, a search there, or a search everywhere. -/
inductive FetchCommand where
  | history (peer : HistoryPeer) (offsetId : Int32)
  | searchPeer (peer : HistoryPeer) (query : Bytes)
  | searchGlobal (query : Bytes)
  deriving DecidableEq

namespace FetchCommand

def run (api : Bytes → ℕ → Option Bytes) (limit : Int32) :
    FetchCommand → Option (List HistoryEntry)
  | history peer offsetId => domainGetHistory api peer offsetId limit
  | searchPeer peer query => domainSearchPeer api peer query limit
  | searchGlobal query => domainSearchGlobal api query limit

def request (limit : Int32) : FetchCommand → Option Bytes
  | history peer offsetId => buildHistoryRequest peer offsetId limit 128
  | searchPeer peer query => buildSearchRequest peer query limit 2048
  | searchGlobal query => buildSearchGlobalRequest query limit 2048

end FetchCommand

def HistoryPeerKind.width : HistoryPeerKind → ℕ
  | self => 4
  | user => 20
  | chat => 12
  | channel => 20

/-- The request fits its buffer: that of a history always does, that of a search if the words that
are searched for do. -/
def FetchCommand.Fits : FetchCommand → Prop
  | .history _ _ => True
  | .searchPeer peer query => 48 + peer.kind.width + (tlBytes (cstr query)).length ≤ 2048
  | .searchGlobal query => 36 + (tlBytes (cstr query)).length ≤ 2048

theorem length_writeInputPeer (w : TlWriter) (p : HistoryPeer) :
    (writeInputPeer w p).length = w.length + p.kind.width := by
  rw [writeInputPeer]
  rcases p with ⟨_ | _ | _ | _, id, hash⟩ <;>
    simp [tlWriteUint32, tlWriteInt64, tlWriteUint64, HistoryPeerKind.width]

theorem isSome_fitRequest (cap : ℕ) (w : TlWriter) :
    (fitRequest cap w).isSome = true ↔ w.length ≤ cap := by
  rw [fitRequest]
  split_ifs with h <;> simp [h]

theorem HistoryPeerKind.width_le (k : HistoryPeerKind) : k.width ≤ 20 := by
  cases k <;> decide

theorem FetchCommand.isSome_request (c : FetchCommand) (limit : Int32) :
    (c.request limit).isSome = true ↔ c.Fits := by
  cases c with
  | history peer offsetId =>
    have hpeer := peer.kind.width_le
    rw [request, buildHistoryRequest, isSome_fitRequest]
    simp [tlWriteUint32, tlWriteInt32, tlWriteInt64, tlWriteUint64, length_writeInputPeer, Fits]
    omega
  | searchPeer peer query =>
    rw [request, buildSearchRequest, isSome_fitRequest]
    simp [tlWriteUint32, tlWriteInt32, tlWriteInt64, tlWriteUint64, tlWriteString, tlWriteBytes_eq,
      length_writeInputPeer, Fits]
    omega
  | searchGlobal query =>
    rw [request, buildSearchGlobalRequest, isSome_fitRequest]
    simp [tlWriteUint32, tlWriteInt32, tlWriteString, tlWriteBytes_eq, Fits]
    omega

/-- `api_call` delivers the reply into a buffer that holds it, and fails with a smaller one. -/
def Delivers (api : Bytes → ℕ → Option Bytes) (reply : Bytes) : Prop :=
  ∀ query cap, api query cap = if reply.length ≤ cap then some reply else none

/-- The entries of a call are the first messages of the reply, with their ids, dates and texts. -/
def ReturnsFirst (c : FetchCommand) (api : Bytes → ℕ → Option Bytes) (limit : Int32)
    (reply : MessagesReply) : Prop :=
  (c.run api limit).map (List.map HistoryEntry.view) =
    some ((reply.messages.take limit.toInt.toNat).map TlMessage.view)

section Calls

variable {api : Bytes → ℕ → Option Bytes} {reply : MessagesReply}

section Fetch

variable {parse : Prog Scan Unit} {minLen : ℕ} {limit : Int32} {request : Option Bytes}

theorem fetchMessages_eq (hapi : Delivers api reply.bytes) (hmin : minLen ≤ 8) (hlimit : 0 < limit)
    (hrequest : request.isSome = true) (hlen : reply.bytes.length ≤ 262144) :
    fetchMessages parse api minLen limit request =
      parseTop parse limit.toInt.toNat reply.bytes := by
  obtain ⟨query, rfl⟩ := isSome_iff_exists.mp hrequest
  have hlong := reply.le_length_bytes
  rw [fetchMessages, if_neg (Int32.not_le.mpr hlimit), bind_some, hapi query 262144,
    if_pos hlen, bind_some, if_neg (by omega)]

theorem fetchMessages_eq_none (hapi : Delivers api reply.bytes) (h : ¬ (0 < limit ∧
    request.isSome = true ∧ reply.bytes.length ≤ 262144)) :
    fetchMessages parse api minLen limit request = none := by
  rw [fetchMessages]
  by_cases hlimit : 0 < limit
  · rw [if_neg (Int32.not_le.mpr hlimit)]
    rcases request with _ | query
    · rfl
    · have hlen : ¬ reply.bytes.length ≤ 262144 := fun hlen => h ⟨hlimit, rfl, hlen⟩
      rw [bind_some, hapi query 262144, if_neg hlen, bind_none]
  · rw [if_pos (Int32.not_lt.mp hlimit)]

end Fetch

theorem FetchCommand.run_eq (c : FetchCommand) (api : Bytes → ℕ → Option Bytes) (limit : Int32) :
    ∃ keepsInfo, ∃ minLen ≤ 8,
      c.run api limit =
        fetchMessages (pageParser keepsInfo) api minLen limit (c.request limit) := by
  cases c with
  | history peer offsetId => exact ⟨true, 8, le_rfl, rfl⟩
  | searchPeer peer query => exact ⟨false, 4, by decide, rfl⟩
  | searchGlobal query => exact ⟨false, 4, by decide, rfl⟩

/-- **When a page is returned.**  The first messages of a page come back with their ids, dates and
texts exactly if the limit is positive, the request and the reply fit their buffers, the header has
none of its optional fields, and each of the messages that are due is readable. -/
theorem returnsFirst_iff (c : FetchCommand) (api : Bytes → ℕ → Option Bytes) (limit : Int32)
    (reply : MessagesReply) (hapi : Delivers api reply.bytes)
    (hid : ∀ m ∈ reply.messages, m.id ≠ 0) :
    ReturnsFirst c api limit reply ↔
      0 < limit ∧ c.Fits ∧ reply.bytes.length ≤ 262144 ∧ reply.HeaderRead ∧
        ∀ m ∈ reply.messages.take limit.toInt.toNat, m.Readable := by
  obtain ⟨keepsInfo, minLen, hmin, hrun⟩ := c.run_eq api limit
  rw [ReturnsFirst, hrun, ← c.isSome_request limit]
  by_cases hfits : 0 < limit ∧ (c.request limit).isSome = true ∧ reply.bytes.length ≤ 262144
  · obtain ⟨hlimit, hrequest, hlen⟩ := hfits
    have hcount := reply.length_messages_le
    rw [fetchMessages_eq hapi hmin hlimit hrequest hlen]
    by_cases hopt : reply.header.optional = []
    · obtain ⟨r, hr, hparse⟩ := parseTop_of_plain reply (by omega) hopt (pageParser keepsInfo)
        limit.toInt.toNat
      rw [hparse, map_some, some_inj, messageLoop_eq_iff _ hid _ hr]
      exact ⟨fun h => ⟨hlimit, hrequest, hlen, .inl hopt, h⟩, fun h => h.2.2.2.2⟩
    · have hpos : 0 < limit.toInt.toNat := by
        have : (0 : Int32).toInt < limit.toInt := Int32.lt_iff_toInt_lt.mp hlimit
        rw [Int32.toInt_zero] at this
        omega
      rw [parseTop_of_optional reply (by omega) hopt]
      by_cases hvec : reply.header.optional.take 4 = u32Bytes tlVector
      · have hnone : (reply.messages.take limit.toInt.toNat).map TlMessage.view = [] ↔
            reply.messages = [] := by
          rw [map_eq_nil_iff, take_eq_nil_iff]
          exact ⟨fun h => h.resolve_left hpos.ne', .inr⟩
        rw [if_pos hvec, map_some, map_nil, some_inj, eq_comm, hnone]
        constructor
        · intro hnil
          refine ⟨hlimit, hrequest, hlen, .inr ⟨hnil, hvec⟩, ?_⟩
          rw [hnil, take_nil]
          exact fun _ hm => absurd hm not_mem_nil
        · exact fun h => (h.2.2.2.1.resolve_left hopt).1
      · rw [if_neg hvec]
        exact ⟨fun h => absurd h.symm (some_ne_none _),
          fun h => absurd (h.2.2.2.1.resolve_left hopt).2 hvec⟩
  · rw [fetchMessages_eq_none hapi hfits]
    exact ⟨fun h => absurd h.symm (some_ne_none _),
      fun h => absurd ⟨h.1, h.2.1, h.2.2.1⟩ hfits⟩

end Calls

/-- A message with nothing but its id, its peer, its date and its text. -/
def bareMessage (id date : Int32) (text : TlString) : PlainMessage where
  flags := 0
  flags2 := 0
  id := id
  fromId h := absurd h (by decide)
  peerId := ⟨tlPeerUser, by decide, 42⟩
  savedPeerId h := absurd h (by decide)
  fwdFrom h := absurd h (by decide)
  viaBotId h := absurd h (by decide)
  viaBusinessBotId h := absurd h (by decide)
  replyTo h := absurd h (by decide)
  date := date
  text := text
  media h := absurd h (by decide)
  replyMarkup h := absurd h (by decide)
  entities h := absurd h (by decide)
  views h := absurd h (by decide)
  forwards h := absurd h (by decide)
  replies h := absurd h (by decide)
  editDate h := absurd h (by decide)
  postAuthor h := absurd h (by decide)
  groupedId h := absurd h (by decide)
  reactions h := absurd h (by decide)
  restrictionReason h := absurd h (by decide)
  ttlPeriod h := absurd h (by decide)
  quickReplyShortcutId h := absurd h (by decide)
  effect h := absurd h (by decide)
  factcheck h := absurd h (by decide)

def pageOfOne (header : MessagesHeader) : MessagesReply :=
  ⟨header, [.message (bareMessage 7 100 ⟨ascii "hi", by decide⟩)], []⟩

def answering (reply : Bytes) (_ : Bytes) (cap : ℕ) : Option Bytes :=
  if reply.length ≤ cap then some reply else none

theorem pageOfOne_id (header : MessagesHeader) : ∀ m ∈ (pageOfOne header).messages, m.id ≠ 0 := by
  intro m hm
  rw [mem_singleton.mp hm]
  decide

theorem returnsFirst_of_one :
    ReturnsFirst (.history ⟨.self, 0, 0⟩ 0) (answering (pageOfOne .messages).bytes) 10
      (pageOfOne .messages) :=
  (returnsFirst_iff (.history ⟨.self, 0, 0⟩ 0) (answering (pageOfOne .messages).bytes) 10
    (pageOfOne .messages) (fun _ _ => rfl) (pageOfOne_id .messages)).mpr
    ⟨by decide, trivial, by decide +kernel, .inl rfl, fun m hm => by
      rw [mem_singleton.mp hm]
      show (0 : UInt8) ∉ (ascii "hi").take 511
      decide⟩

def rateHeader : MessagesHeader :=
  .slice 1 1 (fun _ => 5) fun h => absurd h (by decide)

/-- With `next_rate` in the header the history of one message cannot be read. -/
theorem page_lost_to_next_rate :
    ¬ ∀ (c : FetchCommand) (api : Bytes → ℕ → Option Bytes) (limit : Int32) (reply : MessagesReply),
      0 < limit → Delivers api reply.bytes → (∀ m ∈ reply.messages, m.id ≠ 0) →
      ReturnsFirst c api limit reply := by
  intro h
  have hfirst := h (.history ⟨.self, 0, 0⟩ 0) (answering (pageOfOne rateHeader).bytes) 10
    (pageOfOne rateHeader) (by decide) (fun _ _ => rfl) (pageOfOne_id rateHeader)
  have hnone : (FetchCommand.history ⟨.self, 0, 0⟩ 0).run
      (answering (pageOfOne rateHeader).bytes) 10 = none := by
    decide +kernel
  rw [ReturnsFirst, hnone] at hfirst
  exact absurd hfirst.symm (some_ne_none _)

end TgCli.Domain
