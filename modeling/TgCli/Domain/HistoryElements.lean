import TgCli.Domain.HistoryPage

/-!
# The elements of a page and the entries that come of it

The loops of `history.c` and `search.c` have no length for an element of the vector: the next one
begins where `parse_message` stopped.  That is right as long as `parse_message` stops at the end of
the message or fails, since the loop ends with a failure.  For the action of a service message there
is a third way.  `parse_service_action` does not know where an action ends whose constructor is not
among its nineteen; it returns 0 all the same, so that the entry gets its label, and says that "the
enclosing vector iterator will stop on rc=-1".  It does not: the loop goes on at the first byte of
the action's fields, and whoever chose these bytes chose the entries that follow.

`Page` is a reply with such elements in it, with the fields of the unknown actions left open.  An
attempt is a place where the loop calls `parse_message`, and `Page.inPlace_iff` says for which pages
they are all made at the start of an element.
-/

namespace TgCli.Domain

open List Lib TgCli.Core Infrastructure

/-! ## Actions that the parser does not know -/

/-- A `messageService` whose action the parser does not know, without the fields of the action. -/
structure UnknownService where
  flags : UInt32
  id : Int32
  fromId : hasFlag flags 8 = true → TlPeer
  peerId : TlPeer
  replyTo : hasFlag flags 3 = true → TlObject tlSkipMessageReplyHeader
  date : Int32
  action : UInt32
  unknown : action ∉ labelledActions
  ttlPeriod : hasFlag flags 25 = true → Int32

namespace UnknownService

variable (m : UnknownService)

/-- The same message with an action that has no fields. -/
def emptied : ServiceMessage :=
  ⟨m.flags, m.id, m.fromId, m.peerId, m.replyTo, m.date, .empty, m.ttlPeriod⟩

def ttlBytes : Bytes :=
  whenSet (hasFlag m.flags 25) fun h => u32Bytes (m.ttlPeriod h).toUInt32

/-- The message up to the constructor of its action, with `b` behind it. -/
def upToFields (b : Bytes) : Bytes :=
  u32Bytes tlMessageService ++ (u32Bytes m.flags ++ (u32Bytes m.id.toUInt32 ++
    m.emptied.upToAction (u32Bytes m.action ++ b)))

def bytes (payload : Bytes) : Bytes :=
  m.upToFields (payload ++ m.ttlBytes)

/-- How much is taken for `ttl_period`. -/
def ttlWidth : ℕ :=
  if hasFlag m.flags 25 then 4 else 0

def seen : MessageView :=
  ⟨m.id, m.date.toInt64, (unknownLabel m.action).take 511⟩

theorem upToFields_append (b t : Bytes) : m.upToFields b ++ t = m.upToFields (b ++ t) := by
  simp only [upToFields, append_assoc, ServiceMessage.upToAction_append]

theorem ttlWidth_le : m.ttlWidth ≤ m.ttlBytes.length := by
  rw [ttlWidth, ttlBytes, whenSet]
  split_ifs
  · exact (length_u32Bytes _).ge
  · exact Nat.zero_le _

end UnknownService

section Unknown

open Scan

variable {v : MessageView}

theorem reads_unknownAction {acrc : UInt32} (h : acrc ∉ labelledActions) :
    Reads parseServiceAction (u32Bytes acrc ++ []) () v
      { v with text := (unknownLabel acrc).take 511 } := by
  refine takes_parseServiceAction ?_
  rw [serviceActionRun_of_unlabelled h]
  exact reads_say _

theorem unknownLabel_ne_nil (acrc : UInt32) : (unknownLabel acrc).take 511 ≠ [] := by
  rw [Ne, take_eq_nil_iff]
  exact fun h => h.elim (by decide) (by simp [unknownLabel, ascii])

variable (keepsInfo : Bool) (m : UnknownService)

/-- **An unknown action is not passed.**  The parser takes the message up to the constructor of the
action, and a word for `ttl_period`. -/
theorem UnknownService.reads (word : Int32) :
    Reads (pageParser keepsInfo)
      (m.upToFields (whenSet (hasFlag m.flags 25) fun _ => u32Bytes word.toUInt32)) () .zero
      m.seen := by
  have haction : Reads (ServiceMessage.runAction m.emptied.pinned) (u32Bytes m.action ++ []) ()
      ⟨m.id, m.date.toInt64, m.emptied.pinned⟩ m.seen := by
    refine (reads_unknownAction m.unknown).after (fun _ => rfl) fun st hst => ?_
    rw [view_restoreText, hst]
    rw [if_neg (unknownLabel_ne_nil m.action)]
    rfl
  refine takes_parse (takes_serviceBody keepsInfo m.id (m.emptied.takes_upToAction rfl ?_))
  rw [← append_nil (u32Bytes m.action)]
  exact haction.bind (reads_skipTtl m.flags fun _ => word)

theorem UnknownService.run {payload : Bytes} {r : TlReader} {t : Bytes}
    (hr : r.rest = m.bytes payload ++ t) :
    ∃ st : Scan, pageParser keepsInfo ⟨r, .zero⟩ = (some (), st) ∧
      st.reader.rest = (payload ++ (m.ttlBytes ++ t)).drop m.ttlWidth ∧ st.entry.view = m.seen := by
  generalize hb : payload ++ (m.ttlBytes ++ t) = b
  have hlen : m.ttlWidth ≤ b.length := by
    have := m.ttlWidth_le
    rw [← hb, length_append, length_append]
    omega
  have hword : whenSet (hasFlag m.flags 25) (fun _ => u32Bytes (u32At b 0).toInt32.toUInt32) ++
      b.drop m.ttlWidth = b := by
    rw [UnknownService.ttlWidth] at hlen ⊢
    rw [whenSet, UInt32.toUInt32_toInt32]
    split_ifs at hlen ⊢
    · exact u32Bytes_append_drop hlen
    · rfl
  rw [UnknownService.bytes, m.upToFields_append, append_assoc, hb, ← hword,
    ← m.upToFields_append] at hr
  obtain ⟨st, hst, hrest, hview⟩ := (m.reads keepsInfo (u32At b 0).toInt32).run hr view_zero
  exact ⟨st, hst, hrest rfl, hview⟩

end Unknown

/-! ## Pages -/

/-- An element of the vector: a message that the parsers know, a service message with an unknown
action, or something that the parsers refuse, whatever follows it. -/
inductive PageElement where
  | known (m : TlMessage)
  | unknown (m : UnknownService)
  | refused (b : Bytes)
      (breaks : ∀ keepsInfo, ∃ v, Scan.Breaks (pageParser keepsInfo) b .zero v)

/-- The bytes of an element; `payload` stands for the fields of an unknown action. -/
def PageElement.bytes (payload : Bytes) : PageElement → Bytes
  | known m => m.bytes
  | unknown m => m.bytes payload
  | refused b _ => b

def elementsBytes : (ℕ → Bytes) → List PageElement → Bytes
  | _, [] => []
  | payload, e :: es => e.bytes (payload 0) ++ elementsBytes (fun i => payload (i + 1)) es

/-- A reply.  An element has at least four bytes, so the 262144 bytes of the buffer have no room for
more than 65536. -/
structure Page where
  header : MessagesHeader
  elements : List PageElement
  tail : Bytes
  few : elements.length ≤ 65536

def Page.bytes (page : Page) (payload : ℕ → Bytes) : Bytes :=
  pageBytes page.header page.elements.length (elementsBytes payload page.elements ++ page.tail)

/-! ## Attempts -/

def attempts (keepsInfo : Bool) (limit : ℕ) (resp : Bytes) : List TlReader :=
  match vectorAt resp with
  | some x => messageAttempts (pageParser keepsInfo) x.1 limit x.2
  | none => []

/-- What a call returns is what the attempts on its reply find. -/
theorem FetchCommand.run_eq_attempts {c : FetchCommand} {api : Bytes → ℕ → Option Bytes}
    {limit : Int32} {entries : List HistoryEntry} (h : c.run api limit = some entries) :
    ∃ keepsInfo query resp, api query 262144 = some resp ∧
      entries = ((attempts keepsInfo limit.toInt.toNat resp).map
        (entryAt (pageParser keepsInfo))).filter HistoryEntry.isKept := by
  obtain ⟨keepsInfo, minLen, -, hrun⟩ := c.run_eq api limit
  rw [hrun, fetchMessages] at h
  split_ifs at h
  obtain ⟨query, -, h⟩ := Option.bind_eq_some_iff.mp h
  obtain ⟨resp, hresp, h⟩ := Option.bind_eq_some_iff.mp h
  split_ifs at h
  rw [parseTop] at h
  obtain ⟨x, hx, h⟩ := Option.map_eq_some_iff.mp h
  refine ⟨keepsInfo, query, resp, hresp, ?_⟩
  rw [attempts, hx, ← h, messageLoop_eq_attempts]

/-! ## Places -/

section Places

variable (keepsInfo : Bool)

/-- Each attempt that finds an entry is made at the start of the element with its number. -/
def AllInPlace (payload : ℕ → Bytes) (es : List PageElement) (tail : Bytes) (rs : List TlReader) :
    Prop :=
  ∀ i r, rs[i]? = some r → (entryAt (pageParser keepsInfo) r).isKept = true →
    i < es.length ∧ r.rest = elementsBytes (fun j => payload (i + j)) (es.drop i) ++ tail

variable {keepsInfo} {payload : ℕ → Bytes} {es : List PageElement} {tail : Bytes}

theorem allInPlace_nil : AllInPlace keepsInfo payload es tail [] := by
  intro i r hr
  rw [getElem?_nil] at hr
  exact absurd hr (Option.some_ne_none r).symm

theorem allInPlace_cons {e : PageElement} {r : TlReader} {rs : List TlReader}
    (hr : r.rest = elementsBytes payload (e :: es) ++ tail) :
    AllInPlace keepsInfo payload (e :: es) tail (r :: rs) ↔
      AllInPlace keepsInfo (fun i => payload (i + 1)) es tail rs := by
  have hshift : ∀ i, (fun j => payload (i + 1 + j)) = fun j => payload (i + j + 1) := by
    intro i
    funext j
    rw [Nat.add_right_comm]
  constructor
  · intro h i r' hr' hkept
    obtain ⟨hi, hrest⟩ := h (i + 1) r' hr' hkept
    rw [hshift i] at hrest
    exact ⟨Nat.lt_of_succ_lt_succ hi, hrest⟩
  · intro h i r' hr' hkept
    cases i with
    | zero =>
      rw [getElem?_cons_zero, Option.some_inj] at hr'
      rw [← hr']
      refine ⟨Nat.zero_lt_succ _, ?_⟩
      simpa only [Nat.zero_add, drop_zero] using hr
    | succ i =>
      obtain ⟨hi, hrest⟩ := h i r' hr' hkept
      rw [hshift i]
      exact ⟨Nat.succ_lt_succ hi, hrest⟩

end Places

/-! ## What becomes of an element -/

def MessageView.isKept (v : MessageView) : Bool :=
  decide (v.id ≠ 0 ∨ v.text ≠ [])

/-- The vector of users in the action, if there is one, is not refused. -/
def TlMessage.isPassed : TlMessage → Bool
  | empty _ _ _ => true
  | message _ => true
  | service m => decide (m.action.users ≤ 4096)

/-- What is seen of a message that is passed. -/
def TlMessage.seen : TlMessage → MessageView
  | empty _ id _ => ⟨id, 0, []⟩
  | message m => ⟨m.id, m.date.toInt64, (cstr m.text.val).take 511⟩
  | service m => ⟨m.id, m.date.toInt64, m.shown.take 511⟩

section Elements

variable (keepsInfo : Bool)

theorem TlMessage.reads_seen (m : TlMessage) (h : m.isPassed = true) :
    Scan.Reads (pageParser keepsInfo) m.bytes () .zero m.seen := by
  cases m with
  | empty flags id peerId => exact TlMessage.reads keepsInfo (.empty flags id peerId) trivial
  | message m => exact takes_parse (m.reads_body keepsInfo)
  | service m => exact takes_parse (m.reads_body keepsInfo (of_decide_eq_true h))

theorem TlMessage.breaks_of_not_passed (m : TlMessage) (h : ¬ m.isPassed = true) :
    ∃ v, Scan.Breaks (pageParser keepsInfo) m.bytes .zero v := by
  cases m with
  | empty flags id peerId => exact absurd rfl h
  | message m => exact absurd rfl h
  | service m =>
    have hu : ¬ m.action.users ≤ 4096 := fun hu => h (decide_eq_true hu)
    exact ⟨_, takes_parse (m.breaks_body keepsInfo (by omega))⟩

variable {keepsInfo} {r : TlReader} {t : Bytes}

theorem messageAttempts_of_breaks {b : Bytes} {v : MessageView}
    (h : Scan.Breaks (pageParser keepsInfo) b .zero v) (hr : r.rest = b ++ t) (count room : ℕ) :
    messageAttempts (pageParser keepsInfo) (count + 1) (room + 1) r = [r] := by
  obtain ⟨st, hst, -⟩ := h.run hr view_zero
  rw [messageAttempts, hst]
  rfl

theorem messageAttempts_of_some {st : Scan} {v : MessageView}
    (h : pageParser keepsInfo ⟨r, .zero⟩ = (some (), st)) (hv : st.entry.view = v)
    (count room : ℕ) :
    messageAttempts (pageParser keepsInfo) (count + 1) (room + 1) r =
      r :: messageAttempts (pageParser keepsInfo) count (if v.isKept then room else room + 1)
        st.reader := by
  have hkept : st.entry.isKept = v.isKept := by rw [← hv]; rfl
  rw [messageAttempts, h]
  rw [hkept, Option.isNone_some, if_neg Bool.false_ne_true]

theorem UnknownService.isKept_seen (m : UnknownService) : m.seen.isKept = true :=
  decide_eq_true (.inr (unknownLabel_ne_nil m.action))

theorem UnknownService.messageAttempts_eq (m : UnknownService) (keepsInfo : Bool) {payload : Bytes}
    (hr : r.rest = m.bytes payload ++ t) (count room : ℕ) :
    ∃ r' : TlReader, r'.rest = (payload ++ (m.ttlBytes ++ t)).drop m.ttlWidth ∧
      messageAttempts (pageParser keepsInfo) (count + 1) (room + 1) r =
        r :: messageAttempts (pageParser keepsInfo) count room r' := by
  obtain ⟨st, hst, hrest, hview⟩ := m.run keepsInfo hr
  refine ⟨st.reader, hrest, ?_⟩
  rw [messageAttempts_of_some hst hview, if_pos m.isKept_seen]

end Elements

/-! ## When the entries are in place -/

/-- No element that the loop gets to follows an unknown action. -/
def NoneBehindUnknown : ℕ → List PageElement → Prop
  | _, [] => True
  | 0, _ :: _ => True
  | room + 1, .known m :: es =>
    m.isPassed = true → NoneBehindUnknown (if m.seen.isKept then room else room + 1) es
  | room + 1, .unknown _ :: es => es = [] ∨ room = 0
  | _ + 1, .refused _ _ :: _ => True

section Loop

variable {keepsInfo : Bool} {tail : Bytes}

theorem messageAttempts_zero_room (count : ℕ) (r : TlReader) :
    messageAttempts (pageParser keepsInfo) count 0 r = [] := by
  cases count with
  | zero => rfl
  | succ count => rfl

/-- **Whatever the unknown actions carry**, the entries are in place. -/
theorem allInPlace_of_noneBehind (es : List PageElement) (room : ℕ) (h : NoneBehindUnknown room es)
    (payload : ℕ → Bytes) {r : TlReader} (hr : r.rest = elementsBytes payload es ++ tail) :
    AllInPlace keepsInfo payload es tail
      (messageAttempts (pageParser keepsInfo) es.length room r) := by
  induction es generalizing room payload r with
  | nil =>
    rw [length_nil, messageAttempts]
    exact allInPlace_nil
  | cons e es ih =>
    cases room with
    | zero =>
      rw [messageAttempts_zero_room]
      exact allInPlace_nil
    | succ room =>
      have hat := hr
      rw [elementsBytes, append_assoc] at hat
      cases e with
      | known m =>
        by_cases hpass : m.isPassed = true
        · obtain ⟨st, hst, hrest, hview⟩ := (m.reads_seen keepsInfo hpass).run hat view_zero
          rw [length_cons, messageAttempts_of_some hst hview, allInPlace_cons hr]
          exact ih _ (h hpass) _ (hrest rfl)
        · obtain ⟨v, hbreaks⟩ := m.breaks_of_not_passed keepsInfo hpass
          rw [length_cons, messageAttempts_of_breaks hbreaks hat, allInPlace_cons hr]
          exact allInPlace_nil
      | unknown m =>
        obtain ⟨r', -, hattempts⟩ := m.messageAttempts_eq keepsInfo hat es.length room
        rw [length_cons, hattempts, allInPlace_cons hr]
        rcases h with hnil | hroom
        · rw [hnil, length_nil, messageAttempts]
          exact allInPlace_nil
        · rw [hroom, messageAttempts_zero_room]
          exact allInPlace_nil
      | refused b hbreaks =>
        obtain ⟨v, hbreaks⟩ := hbreaks keepsInfo
        rw [length_cons, messageAttempts_of_breaks hbreaks hat, allInPlace_cons hr]
        exact allInPlace_nil

def noField {α : Type} {i : ℕ} (h : hasFlag 0 i = true) : α :=
  absurd h (by simp [hasFlag])

def forgedMessage : TlMessage :=
  .empty 0 1 noField

/-- Fields of an action that read as a message, behind what is taken for `ttl_period`. -/
def UnknownService.forgedFields (m : UnknownService) : Bytes :=
  List.replicate m.ttlWidth 0 ++ forgedMessage.bytes

/-- The attempt behind an unknown action finds the message in its fields. -/
theorem UnknownService.not_allInPlace (m : UnknownService) {payload : ℕ → Bytes}
    (hpayload : payload 0 = m.forgedFields) (e : PageElement) (es : List PageElement) (room : ℕ)
    {r : TlReader} (hr : r.rest = elementsBytes payload (.unknown m :: e :: es) ++ tail) :
    ¬ AllInPlace keepsInfo payload (.unknown m :: e :: es) tail
      (messageAttempts (pageParser keepsInfo) (es.length + 2) (room + 2) r) := by
  have hat := hr
  rw [elementsBytes, append_assoc, hpayload] at hat
  obtain ⟨r', hr', hattempts⟩ := m.messageAttempts_eq keepsInfo hat
    (es.length + 1) (room + 1)
  rw [UnknownService.forgedFields, append_assoc,
    drop_left' length_replicate] at hr'
  rw [hattempts, allInPlace_cons hr]
  intro hplace
  obtain ⟨st, hst, -, hview⟩ := (forgedMessage.reads_seen keepsInfo rfl).run hr' view_zero
  rw [messageAttempts_of_some hst hview] at hplace
  have hkept : (entryAt (pageParser keepsInfo) r').isKept = true := by
    rw [entryAt, hst]
    refine isKept_of_id ?_
    rw [hview]
    decide
  have hrest := (hplace 0 r' rfl hkept).2
  have hlen := congrArg length (hr'.symm.trans hrest)
  simp only [Nat.zero_add, drop_zero, length_append,
    show forgedMessage.bytes.length = 12 from rfl] at hlen
  omega

/-- **Behind an unknown action an entry can be made up.** -/
theorem exists_not_allInPlace (keepsInfo : Bool) (tail : Bytes) (es : List PageElement) (room : ℕ)
    (h : ¬ NoneBehindUnknown room es) :
    ∃ payload : ℕ → Bytes, ∀ r : TlReader, r.rest = elementsBytes payload es ++ tail →
      ¬ AllInPlace keepsInfo payload es tail
        (messageAttempts (pageParser keepsInfo) es.length room r) := by
  induction es generalizing room with
  | nil => exact absurd trivial h
  | cons e es ih =>
    cases room with
    | zero => exact absurd trivial h
    | succ room =>
      cases e with
      | known m =>
        obtain ⟨hpass, hbehind⟩ := Classical.not_imp.mp h
        obtain ⟨payload, hpayload⟩ := ih _ hbehind
        refine ⟨fun i => payload (i - 1), fun r hr => ?_⟩
        have hat := hr
        rw [elementsBytes, append_assoc] at hat
        obtain ⟨st, hst, hrest, hview⟩ := (m.reads_seen keepsInfo hpass).run hat view_zero
        rw [length_cons, messageAttempts_of_some hst hview, allInPlace_cons hr]
        exact hpayload st.reader (hrest rfl)
      | unknown m =>
        obtain ⟨hes, hroom⟩ := not_or.mp h
        obtain ⟨e, es', rfl⟩ := exists_cons_of_ne_nil hes
        obtain ⟨room, rfl⟩ := Nat.exists_eq_succ_of_ne_zero hroom
        exact ⟨fun _ => m.forgedFields, fun r hr => m.not_allInPlace rfl e es' room hr⟩
      | refused b hbreaks => exact absurd trivial h

end Loop

/-- Whatever the fields of the unknown actions are, every entry comes from the start of the element
with its number. -/
def Page.InPlace (page : Page) (keepsInfo : Bool) (limit : ℕ) : Prop :=
  ∀ payload : ℕ → Bytes, AllInPlace keepsInfo payload page.elements page.tail
    (attempts keepsInfo limit (page.bytes payload))

/-- A vector that begins with something else than a message gives no entries. -/
theorem allInPlace_of_unknown_word {keepsInfo : Bool} {x : UInt32} (hx : x ≠ tlMessageEmpty ∧
    x ≠ tlMessage ∧ x ≠ tlMessageService) {r : TlReader} {t : Bytes}
    (hr : r.rest = u32Bytes x ++ t) (count room : ℕ) (payload : ℕ → Bytes) (es : List PageElement)
    (tail : Bytes) :
    AllInPlace keepsInfo payload es tail (messageAttempts (pageParser keepsInfo) count room r) := by
  have hnone : messageLoop (pageParser keepsInfo) count room r = [] :=
    messageLoop_of_unknown hx hr count room
  rw [messageLoop_eq_attempts, filter_eq_nil_iff] at hnone
  intro i r' hr' hkept
  exact absurd hkept (hnone _ (mem_map_of_mem (mem_of_getElem? hr')))

/-- **When the entries are in place.**  Every entry of a history or of a search comes from the start
of the element with its number, whatever the fields of the unknown actions are, exactly if the
header has an optional field, and so there are no entries at all, or no element that the loop gets
to follows an unknown action. -/
theorem Page.inPlace_iff (page : Page) (keepsInfo : Bool) (limit : ℕ) :
    page.InPlace keepsInfo limit ↔
      page.header.optional ≠ [] ∨ NoneBehindUnknown limit page.elements := by
  by_cases hopt : page.header.optional = []
  · have hlen : page.elements.length < 2 ^ 32 := lt_of_le_of_lt page.few (by decide)
    have hbegin := fun payload => vectorAt_of_plain page.header hlen
      (elementsBytes payload page.elements ++ page.tail) hopt
    constructor
    · intro h
      refine .inr (by_contra fun hbehind => ?_)
      obtain ⟨payload, hpayload⟩ := exists_not_allInPlace keepsInfo page.tail page.elements
        limit hbehind
      obtain ⟨r, hr, hat⟩ := hbegin payload
      have hplace := h payload
      rw [attempts, Page.bytes, hat] at hplace
      exact hpayload r hr hplace
    · intro h payload
      obtain ⟨r, hr, hat⟩ := hbegin payload
      rw [attempts, Page.bytes, hat]
      exact allInPlace_of_noneBehind _ limit (h.resolve_left fun hne => hne hopt) payload hr
  · refine ⟨fun _ => .inl hopt, fun _ payload => ?_⟩
    have hvector := vectorAt_of_optional page.header page.few
      (elementsBytes payload page.elements ++ page.tail) hopt
    split_ifs at hvector
    · obtain ⟨count, r, x, t, hat, hr, hx⟩ := hvector
      rw [attempts, Page.bytes, hat]
      exact allInPlace_of_unknown_word hx hr count limit payload _ _
    · rw [attempts, Page.bytes, hvector]
      exact allInPlace_nil

/-- A service message with an action from a later layer. -/
def rewardService : UnknownService where
  flags := 0
  id := 5
  fromId := noField
  peerId := ⟨tlPeerChat, by decide, 42⟩
  replyTo := noField
  date := 100
  action := 0xFF00BB02
  unknown := by decide
  ttlPeriod := noField

/-- That message, and one more behind it. -/
def rewardPage : Page where
  header := .messages
  elements :=
    [.unknown rewardService, .known (.message (bareMessage 7 100 ⟨ascii "yes", by decide⟩))]
  tail := []
  few := by decide

def forgedPayload (_ : ℕ) : Bytes :=
  (TlMessage.message (bareMessage 666 100 ⟨ascii "forged", by decide⟩)).bytes

example : ((FetchCommand.history ⟨.self, 0, 0⟩ 0).run (answering (rewardPage.bytes forgedPayload))
    10).map (List.map fun e => (e.id, e.text)) =
      some [(5, ascii "[service action 0xff00bb02]"), (666, ascii "forged")] := by
  decide +kernel

/-- The second entry comes from the fields of the action, and the second message is lost. -/
theorem forged_entry_returned :
    ¬ ∀ (page : Page) (keepsInfo : Bool) (limit : ℕ), page.InPlace keepsInfo limit := by
  intro h
  have hsecond : (attempts true 10 (rewardPage.bytes forgedPayload))[1]? =
      some ⟨rewardPage.bytes forgedPayload, 44⟩ := by
    decide +kernel
  have hkept : (entryAt (pageParser true) ⟨rewardPage.bytes forgedPayload, 44⟩).isKept = true := by
    decide +kernel
  have hrest := (h rewardPage true 10 forgedPayload 1 _ hsecond hkept).2
  exact absurd (congrArg length hrest) (by decide +kernel)

end TgCli.Domain
