import TgCli.Infrastructure.MtprotoRpc

/-!
# The records of a `msg_container`

A container is a constructor, a count and that many records, each a message id, a sequence number,
a length and a body of that length; more may follow.  `rpc_parse_container` returns the records of
such a frame (`parse_record` is one turn), with bodies that lie one behind the other in the buffer.

It also returns records of some frames that are no containers.  Its reader yields zeros at the end
of the input, so of a record that ends inside its header the length is read as zero, and a body of
no bytes is there.  The loop asks at the top of each turn whether anything is left, and that stops
it in the next turn, if there is one.  So a frame whose *last* record ends inside its header is
accepted, and no other incomplete frame is, except one that ends inside the count
(`parsesRecords_iff`).
-/

namespace TgCli.Infrastructure

open List Lib TgCli.Core

/-! ## Frames -/

def recordBytes (m : RpcContainerMsg) : Bytes :=
  u64Bytes m.msgId ++ (u32Bytes m.seqno ++ (u32Bytes (UInt32.ofNat m.body.length) ++ m.body))

/-- The length of the body is a multiple of four that fits its field. -/
structure RpcContainerMsg.WellFormed (m : RpcContainerMsg) : Prop where
  aligned : m.body.length % 4 = 0
  short : m.body.length < 2 ^ 32

/-- The pointers `body` that the loop of `rpc_parse_container` stores, as offsets into the
buffer. -/
def bodyOffsets : ℕ → TlReader → List ℕ
  | 0, _ => []
  | n + 1, r =>
    let bodyLen := tlReadUint32 (tlReadUint32 (tlReadUint64 r).2).2
    bodyLen.2.pos :: bodyOffsets n (tlReadSkip bodyLen.2 bodyLen.1.toNat)

/-- The places of the bodies of a container: an offset and a length for each. -/
def bodySpans (data : Bytes) (msgs : List RpcContainerMsg) : List (ℕ × ℕ) :=
  (bodyOffsets msgs.length (tlReadUint32 (tlReadUint32 (tlReaderInit data)).2).2).zip
    (msgs.map fun m => m.body.length)

/-- The frame begins with a constructor, a count and the records, and the bodies are in the buffer,
one behind the other. -/
structure IsContainerOf (data : Bytes) (msgs : List RpcContainerMsg) : Prop where
  frame : ∃ tail, data = u32Bytes crcMsgContainer ++
    (u32Bytes (UInt32.ofNat msgs.length) ++ (msgs.flatMap recordBytes ++ tail))
  count : msgs.length < 2 ^ 32
  wellFormed : ∀ m ∈ msgs, m.WellFormed
  bodies : (bodySpans data msgs).map (fun s => slice data s.1 s.2) = msgs.map fun m => m.body
  inside : ∀ s ∈ bodySpans data msgs, s.1 + s.2 ≤ data.length
  disjoint : (bodySpans data msgs).Pairwise fun s t => s.1 + s.2 ≤ t.1

/-- Whatever `rpc_parse_container` returns for a frame is what the frame holds. -/
def ParsesRecords (data : Bytes) (maxMsgs : ℕ) : Prop :=
  ∀ msgs, rpcParseContainer data maxMsgs = some msgs → IsContainerOf data msgs

/-- `b` is `n` records, the last of which ends inside its header. -/
def EndsInHeader (n : ℕ) (b : Bytes) : Prop :=
  ∃ (ms : List RpcContainerMsg) (part : Bytes), b = ms.flatMap recordBytes ++ part ∧
    (∀ m ∈ ms, m.WellFormed) ∧ 0 < part.length ∧ part.length < 16 ∧ ms.length + 1 = n

/-- The frame ends inside its count or inside the header of its last record. -/
def EndsInField (data : Bytes) (maxMsgs : ℕ) : Prop :=
  data.length < 8 ∨
    ∃ (n : UInt32) (b : Bytes), data = u32Bytes crcMsgContainer ++ (u32Bytes n ++ b) ∧
      n.toNat ≤ maxMsgs ∧ EndsInHeader n.toNat b

open TlReader

theorem length_recordBytes (m : RpcContainerMsg) :
    (recordBytes m).length = 16 + m.body.length := by
  rw [recordBytes, length_append, length_append, length_append, length_u64Bytes,
    length_u32Bytes, length_u32Bytes]
  omega

/-! ## One turn of the loop -/

section Header

variable {r : TlReader} {a : UInt64} {b c : UInt32} {t : Bytes}

theorem read_recordHeader (h : r.rest = u64Bytes a ++ (u32Bytes b ++ (u32Bytes c ++ t))) :
    tlReadUint64 r = (a, r.advance 8) ∧ tlReadUint32 (r.advance 8) = (b, r.advance 12) ∧
      tlReadUint32 (r.advance 12) = (c, r.advance 16) ∧ (r.advance 16).rest = t := by
  have h8 : (r.advance 8).rest = u32Bytes b ++ (u32Bytes c ++ t) := by
    rw [rest_advance, h]
    exact drop_left' (length_u64Bytes a)
  have h12 : (r.advance 12).rest = u32Bytes c ++ t := by
    rw [← advance_advance r 8 4, rest_advance, h8]
    exact drop_left' (length_u32Bytes b)
  have h16 : (r.advance 16).rest = t := by
    rw [← advance_advance r 12 4, rest_advance, h12]
    exact drop_left' (length_u32Bytes c)
  refine ⟨tlReadUint64_at_rest h, ?_, ?_, h16⟩
  · rw [tlReadUint32_at_rest h8, advance_advance]
  · rw [tlReadUint32_at_rest h12, advance_advance]

theorem recordHeader_fits (h : r.rest = u64Bytes a ++ (u32Bytes b ++ (u32Bytes c ++ t))) :
    r.pos + 16 + t.length = r.data.length := by
  have hlen := congrArg length h
  rw [length_rest, length_append, length_append, length_append,
    length_u64Bytes, length_u32Bytes, length_u32Bytes] at hlen
  omega

theorem parse_recordHeader (n : ℕ) (h : r.rest = u64Bytes a ++ (u32Bytes b ++ (u32Bytes c ++ t))) :
    parseContainerMsgs (n + 1) r =
      if c.toNat % 4 ≠ 0 then none
      else if t.length < c.toNat then none
      else (parseContainerMsgs n (r.advance (16 + c.toNat))).map (⟨a, b, t.take c.toNat⟩ :: ·) := by
  obtain ⟨h1, h2, h3, h16⟩ := read_recordHeader h
  have hfit := recordHeader_fits h
  have hok : tlReaderOk r = true := decide_eq_true (show r.pos < r.data.length by omega)
  have hleft : (r.advance 16).left = t.length := by
    rw [left_of_le (show r.pos + 16 ≤ r.data.length by omega), data_advance,
      pos_advance]
    omega
  rw [parseContainerMsgs, h1, h2, h3, hok, hleft]
  by_cases hal : c.toNat % 4 = 0
  · by_cases hlen : t.length < c.toNat
    · simp [hal, hlen]
    · have hskip : tlReadSkip (r.advance 16) c.toNat = r.advance (16 + c.toNat) := by
        rw [tlReadSkip_of_le (show r.pos + 16 + c.toNat ≤ r.data.length by omega),
          advance_advance]
      have hbody : slice r.data (r.pos + 16) c.toNat = t.take c.toNat := by
        rw [← h16]
        rfl
      simp [hal, hlen, hskip, hbody]
  · simp [hal]

theorem bodyOffsets_header (n : ℕ) (h : r.rest = u64Bytes a ++ (u32Bytes b ++ (u32Bytes c ++ t)))
    (hc : c.toNat ≤ t.length) :
    bodyOffsets (n + 1) r = (r.pos + 16) :: bodyOffsets n (r.advance (16 + c.toNat)) := by
  obtain ⟨h1, h2, h3, -⟩ := read_recordHeader h
  have hfit := recordHeader_fits h
  rw [bodyOffsets, h1, h2, h3]
  rw [tlReadSkip_of_le (show r.pos + 16 + c.toNat ≤ r.data.length by omega),
    advance_advance, pos_advance]

end Header

theorem exists_recordHeader {b : Bytes} (h : 16 ≤ b.length) :
    ∃ (a : UInt64) (s c : UInt32) (t : Bytes),
      b = u64Bytes a ++ (u32Bytes s ++ (u32Bytes c ++ t)) := by
  refine ⟨u64At b 0, u32At (b.drop 8) 0, u32At ((b.drop 8).drop 4) 0,
    ((b.drop 8).drop 4).drop 4, ?_⟩
  rw [u32Bytes_append_drop (by rw [length_drop, length_drop]; omega),
    u32Bytes_append_drop (by rw [length_drop]; omega), u64Bytes_append_drop (by omega)]

variable {r : TlReader} {t data : Bytes}

theorem parse_record {m : RpcContainerMsg} (n : ℕ) (hm : m.WellFormed)
    (h : r.rest = recordBytes m ++ t) :
    parseContainerMsgs (n + 1) r =
        (parseContainerMsgs n (r.advance (recordBytes m).length)).map (m :: ·) ∧
      bodyOffsets (n + 1) r = (r.pos + 16) :: bodyOffsets n (r.advance (recordBytes m).length) := by
  have hrest : r.rest = u64Bytes m.msgId ++
      (u32Bytes m.seqno ++ (u32Bytes (UInt32.ofNat m.body.length) ++ (m.body ++ t))) := by
    rw [h, recordBytes, append_assoc, append_assoc, append_assoc]
  have hc : (UInt32.ofNat m.body.length).toNat = m.body.length :=
    UInt32.toNat_ofNat_of_lt' hm.short
  have hle : m.body.length ≤ (m.body ++ t).length := by
    rw [length_append]
    exact Nat.le_add_right _ _
  rw [length_recordBytes]
  constructor
  · rw [parse_recordHeader n hrest, hc, if_neg (not_not.mpr hm.aligned),
      if_neg (Nat.not_lt.mpr hle), take_left]
  · rw [bodyOffsets_header n hrest (by rw [hc]; exact hle), hc]

theorem read_short_header (h : r.rest.length < 16) :
    tlReadUint32 (tlReadUint32 (tlReadUint64 r).2).2 = (0, r.toEnd) := by
  rw [length_rest] at h
  set r₂ := (tlReadUint32 (tlReadUint64 r).2).2 with hr₂
  have hdata : r₂.data = r.data := by
    rw [hr₂, data_tlReadUint32, data_tlReadUint64]
  -- the first two reads come to the third word of the header or to the end
  have hpos : r₂.data.length < r₂.pos + 4 := by
    have h₁ : (tlReadUint64 r).2.pos = min (r.pos + 8) r.data.length := pos_readFixed_eq_min r 8
    have h₂ : r₂.pos = min ((tlReadUint64 r).2.pos + 4) (tlReadUint64 r).2.data.length :=
      pos_readFixed_eq_min _ 4
    rw [data_tlReadUint64] at h₂
    rw [hdata]
    omega
  rw [tlReadUint32, readFixed_of_lt hpos, toEnd, toEnd, len,
    len, hdata]
  rfl

theorem parse_short (n : ℕ) (hpos : 0 < r.rest.length) (h : r.rest.length < 16) :
    ∃ m : RpcContainerMsg, m.body = [] ∧
      parseContainerMsgs (n + 1) r = (parseContainerMsgs n r.toEnd).map (m :: ·) := by
  have hok : tlReaderOk r = true := by
    rw [length_rest] at hpos
    exact decide_eq_true (show r.pos < r.data.length by omega)
  have hskip : tlReadSkip r.toEnd 0 = r.toEnd := tlReadSkip_of_le (le_refl _)
  refine ⟨⟨(tlReadUint64 r).1, (tlReadUint32 (tlReadUint64 r).2).1, []⟩, rfl, ?_⟩
  rw [parseContainerMsgs, read_short_header h, hok]
  simp [hskip, slice]

theorem parse_end (n : ℕ) (h : r.rest.length = 0) :
    parseContainerMsgs (n + 1) r = none := by
  have hok : tlReaderOk r = false := by
    rw [length_rest] at h
    exact decide_eq_false (show ¬ r.pos < r.data.length by omega)
  rw [parseContainerMsgs, hok]
  rfl

/-! ## The loop -/

theorem parse_records {ms : List RpcContainerMsg} (hms : ∀ m ∈ ms, m.WellFormed) (k : ℕ)
    (h : r.rest = ms.flatMap recordBytes ++ t) :
    parseContainerMsgs (ms.length + k) r =
      (parseContainerMsgs k (r.advance (ms.flatMap recordBytes).length)).map (ms ++ ·) := by
  induction ms generalizing r with
  | nil =>
    rw [length_nil, Nat.zero_add]
    exact Option.map_id'.symm
  | cons m ms ih =>
    rw [flatMap_cons, append_assoc] at h
    have hm := (parse_record (ms.length + k) (hms m mem_cons_self) h).1
    have hrest : (r.advance (recordBytes m).length).rest = ms.flatMap recordBytes ++ t := by
      rw [rest_advance, h, drop_left]
    have := ih (fun x hx => hms x (mem_cons_of_mem m hx)) hrest
    rw [length_cons, Nat.add_right_comm, hm, this, advance_advance, Option.map_map,
      flatMap_cons, length_append]
    rfl

theorem spans_records {ms : List RpcContainerMsg} (hms : ∀ m ∈ ms, m.WellFormed)
    (h : r.rest = ms.flatMap recordBytes ++ t) {spans : List (ℕ × ℕ)}
    (hs : spans = (bodyOffsets ms.length r).zip (ms.map fun m => m.body.length)) :
    spans.map (fun s => slice r.data s.1 s.2) = ms.map (fun m => m.body) ∧
      (∀ s ∈ spans, r.pos ≤ s.1 ∧ s.1 + s.2 ≤ r.data.length) ∧
      spans.Pairwise fun s t => s.1 + s.2 ≤ t.1 := by
  induction ms generalizing r spans with
  | nil =>
    subst hs
    exact ⟨rfl, fun s hs => absurd hs not_mem_nil, List.Pairwise.nil⟩
  | cons m ms ih =>
    rw [flatMap_cons, append_assoc] at h
    have hoff := (parse_record ms.length (hms m mem_cons_self) h).2
    have hrest : (r.advance (recordBytes m).length).rest = ms.flatMap recordBytes ++ t := by
      rw [rest_advance, h, drop_left]
    have hlen := congrArg length h
    rw [length_rest, length_append, length_recordBytes] at hlen
    obtain ⟨hbodies, hin, hdisj⟩ := ih (fun x hx => hms x (mem_cons_of_mem m hx)) hrest rfl
    rw [length_cons, hoff, map_cons, zip_cons_cons] at hs
    subst hs
    have hbody : slice r.data (r.pos + 16) m.body.length = m.body := by
      rw [slice_rest, h]
      refine slice_field (p := u64Bytes m.msgId ++ (u32Bytes m.seqno ++
        u32Bytes (UInt32.ofNat m.body.length))) (q := ms.flatMap recordBytes ++ t) ?_ rfl rfl
      rw [recordBytes, append_assoc, append_assoc, append_assoc, append_assoc,
        append_assoc]
    refine ⟨?_, ?_, pairwise_cons.mpr ⟨?_, hdisj⟩⟩
    · rw [map_cons, map_cons, hbody]
      exact congrArg (m.body :: ·) hbodies
    · intro s hs
      rcases mem_cons.mp hs with rfl | hs
      · exact ⟨Nat.le_add_right _ _, by show r.pos + 16 + m.body.length ≤ _; omega⟩
      · obtain ⟨hle, hend⟩ := hin s hs
        rw [pos_advance] at hle
        exact ⟨by omega, hend⟩
    · intro s hs
      obtain ⟨hle, -⟩ := hin s hs
      rw [pos_advance, length_recordBytes] at hle
      omega

/-- One turn: the data ends inside the header, or a whole record is there. -/
theorem parse_succ_cases (n : ℕ) {msgs : List RpcContainerMsg}
    (h : parseContainerMsgs (n + 1) r = some msgs) : ∃ m ms, msgs = m :: ms ∧
      ((0 < r.rest.length ∧ r.rest.length < 16 ∧ m.body = [] ∧
          parseContainerMsgs n r.toEnd = some ms) ∨
        (m.WellFormed ∧ (∃ t, r.rest = recordBytes m ++ t) ∧
          parseContainerMsgs n (r.advance (recordBytes m).length) = some ms)) := by
  rcases Nat.eq_zero_or_pos r.rest.length with hzero | hpos
  · rw [parse_end n hzero] at h
    exact absurd h (Option.some_ne_none msgs).symm
  by_cases hshort : r.rest.length < 16
  · obtain ⟨m, hbody, hm⟩ := parse_short n hpos hshort
    rw [hm] at h
    obtain ⟨ms, hms, rfl⟩ := Option.map_eq_some_iff.mp h
    exact ⟨m, ms, rfl, Or.inl ⟨hpos, hshort, hbody, hms⟩⟩
  · obtain ⟨a, b, c, t, hrest⟩ := exists_recordHeader (Nat.not_lt.mp hshort)
    rw [parse_recordHeader n hrest] at h
    split_ifs at h with hal hlen
    obtain ⟨ms, hms, rfl⟩ := Option.map_eq_some_iff.mp h
    set m : RpcContainerMsg := ⟨a, b, t.take c.toNat⟩ with hm
    have hbody : m.body.length = c.toNat := length_take_of_le (Nat.not_lt.mp hlen)
    refine ⟨m, ms, rfl, Or.inr ⟨⟨?_, ?_⟩, ⟨t.drop c.toNat, ?_⟩, ?_⟩⟩
    · rw [hbody]
      exact not_not.mp hal
    · rw [hbody]
      exact c.toNat_lt
    · rw [hrest, recordBytes, hbody, UInt32.ofNat_toNat, hm]
      simp only [append_assoc, take_append_drop]
    · rw [length_recordBytes, hbody]
      exact hms

/-- **What the loop accepts.**  The records are there, or the last one ends inside its header. -/
theorem parse_cases (n : ℕ) {msgs : List RpcContainerMsg} (h : parseContainerMsgs n r = some msgs) :
    (msgs.length = n ∧ (∀ m ∈ msgs, m.WellFormed) ∧ ∃ t, r.rest = msgs.flatMap recordBytes ++ t) ∨
      EndsInHeader n r.rest := by
  induction n generalizing r msgs with
  | zero =>
    rw [parseContainerMsgs, Option.some_inj] at h
    subst h
    exact Or.inl ⟨rfl, fun m hm => absurd hm not_mem_nil, r.rest, rfl⟩
  | succ n ih =>
    obtain ⟨m, ms, rfl, ⟨hpos, hshort, -, hms⟩ | ⟨hwf, ⟨t, hrest⟩, hms⟩⟩ := parse_succ_cases n h
    · cases n with
      | zero => exact Or.inr ⟨[], r.rest, rfl, fun m hm => absurd hm not_mem_nil, hpos, hshort, rfl⟩
      | succ n =>
        -- nothing is left for the next turn
        rw [parse_end n (by rw [length_rest]; exact Nat.sub_self _)] at hms
        exact absurd hms (Option.some_ne_none ms).symm
    · have hnext : (r.advance (recordBytes m).length).rest = t := by
        rw [rest_advance, hrest, drop_left]
      rcases ih hms with ⟨hcount, hmswf, t', ht'⟩ | ⟨ms', part, hb, hmswf, h0, h16, hcount⟩
      · refine Or.inl ⟨congrArg (· + 1) hcount, forall_mem_cons.mpr ⟨hwf, hmswf⟩, t', ?_⟩
        rw [hrest, ← hnext, ht', flatMap_cons, append_assoc]
      · refine Or.inr ⟨m :: ms', part, ?_, forall_mem_cons.mpr ⟨hwf, hmswf⟩, h0, h16,
          congrArg (· + 1) hcount⟩
        rw [hrest, ← hnext, hb, flatMap_cons, append_assoc]

theorem parse_endsInHeader {n : ℕ} (h : EndsInHeader n r.rest) :
    ∃ msgs, parseContainerMsgs n r = some msgs ∧
      r.rest.length < (msgs.flatMap recordBytes).length := by
  obtain ⟨ms, part, hrest, hms, h0, h16, rfl⟩ := h
  have hpart : (r.advance (ms.flatMap recordBytes).length).rest = part := by
    rw [rest_advance, hrest, drop_left]
  obtain ⟨m, hm, hparse⟩ := parse_short (r := r.advance (ms.flatMap recordBytes).length) 0
    (by rw [hpart]; exact h0) (by rw [hpart]; exact h16)
  refine ⟨ms ++ [m], ?_, ?_⟩
  · rw [parse_records hms 1 hrest, hparse]
    rfl
  · rw [hrest, flatMap_append, length_append, length_append, flatMap_singleton,
      length_recordBytes]
    omega

/-! ## The container -/

theorem four_le_of_container (h : u32At data 0 = crcMsgContainer) :
    4 ≤ data.length := by
  by_contra hlt
  have hle : (slice data 0 4).length ≤ 3 := by
    rw [length_slice]
    omega
  have hbound := (leNat_lt (slice data 0 4)).trans_le (Nat.pow_le_pow_right (by decide) hle)
  rw [← toNat_u32At, h] at hbound
  exact absurd hbound (by decide)

section Frame

variable {data b : Bytes} {n : UInt32}

theorem read_count (h : data = u32Bytes crcMsgContainer ++ (u32Bytes n ++ b)) :
    tlReadUint32 (tlReadUint32 (tlReaderInit data)).2 = (n, (tlReaderInit data).advance 8) ∧
      ((tlReaderInit data).advance 8).rest = b := by
  have h4 : ((tlReaderInit data).advance 4).rest = u32Bytes n ++ b := by
    rw [rest_advance, rest_tlReaderInit, h]
    exact drop_left' (length_u32Bytes _)
  constructor
  · rw [tlReadUint32_at_rest ((rest_tlReaderInit data).trans h), tlReadUint32_at_rest h4,
      advance_advance]
  · rw [← advance_advance _ 4 4, rest_advance, h4]
    exact drop_left' (length_u32Bytes _)

theorem eq_frame (hcrc : u32At data 0 = crcMsgContainer) (h8 : 8 ≤ data.length) :
    data = u32Bytes crcMsgContainer ++
      (u32Bytes (u32At (data.drop 4) 0) ++ (data.drop 4).drop 4) := by
  rw [u32Bytes_append_drop (by rw [length_drop]; omega), ← hcrc, u32Bytes_append_drop (by omega)]

theorem rpcParseContainer_frame (h : data = u32Bytes crcMsgContainer ++ (u32Bytes n ++ b))
    (maxMsgs : ℕ) :
    rpcParseContainer data maxMsgs =
      if n.toNat > maxMsgs then none
      else parseContainerMsgs n.toNat ((tlReaderInit data).advance 8) := by
  have hlen : ¬ data.length < 4 := by
    rw [h, length_append, length_u32Bytes]
    omega
  have hcrc : u32At data 0 = crcMsgContainer :=
    u32At_of_slice (slice_field (h.trans (nil_append _).symm) rfl (length_u32Bytes _))
  rw [rpcParseContainer, if_neg hlen, if_neg (not_not.mpr hcrc), (read_count h).1]

theorem isContainerOf_frame (h : data = u32Bytes crcMsgContainer ++ (u32Bytes n ++ b))
    {msgs : List RpcContainerMsg} (hcount : msgs.length = n.toNat)
    (hwf : ∀ m ∈ msgs, m.WellFormed) {t : Bytes} (hb : b = msgs.flatMap recordBytes ++ t) :
    IsContainerOf data msgs := by
  obtain ⟨hread, hrest⟩ := read_count h
  have hstart : (tlReadUint32 (tlReadUint32 (tlReaderInit data)).2).2 =
      (tlReaderInit data).advance 8 := congrArg Prod.snd hread
  have hspans : bodySpans data msgs =
      (bodyOffsets msgs.length ((tlReaderInit data).advance 8)).zip
        (msgs.map fun m => m.body.length) := by
    rw [bodySpans, hstart]
  obtain ⟨hbodies, hin, hdisj⟩ := spans_records hwf (hrest.trans hb) hspans
  exact {
    frame := ⟨t, by rw [hcount, UInt32.ofNat_toNat, ← hb]; exact h⟩
    count := by rw [hcount]; exact n.toNat_lt
    wellFormed := hwf
    bodies := hbodies
    inside := fun s hs => (hin s hs).2
    disjoint := hdisj }

end Frame

theorem IsContainerOf.length_le {msgs : List RpcContainerMsg}
    (h : IsContainerOf data msgs) : 8 + (msgs.flatMap recordBytes).length ≤ data.length := by
  obtain ⟨tail, htail⟩ := h.frame
  have hlen := congrArg length htail
  rw [length_append, length_append, length_append, length_u32Bytes,
    length_u32Bytes] at hlen
  omega

theorem rpcParseContainer_of_lt (hcrc : u32At data 0 = crcMsgContainer)
    (h : data.length < 8) (maxMsgs : ℕ) : rpcParseContainer data maxMsgs = some [] := by
  have h4 := four_le_of_container hcrc
  have hread : (tlReadUint32 (tlReaderInit data)).2 = ⟨data, 4⟩ :=
    congrArg Prod.snd (tlReadUint32_at (show 0 + 4 ≤ data.length by omega))
  have hcount : (tlReadUint32 ⟨data, 4⟩).1 = 0 := by
    rw [tlReadUint32, readFixed_of_lt (show data.length < 4 + 4 by omega)]
    rfl
  rw [rpcParseContainer, if_neg (by omega), if_neg (not_not.mpr hcrc), hread]
  dsimp only
  rw [hcount, UInt32.toNat_zero, if_neg (Nat.not_lt_zero maxMsgs), parseContainerMsgs]

/-- **Which frames are parsed for what they are.**  A container's records are returned as they stand
in it, and a frame that is cut short is refused, unless it ends inside the count or inside the
header of its last record. -/
theorem parsesRecords_iff {data : Bytes} (hcrc : u32At data 0 = crcMsgContainer) (maxMsgs : ℕ) :
    ParsesRecords data maxMsgs ↔ ¬ EndsInField data maxMsgs := by
  constructor
  · rintro hlaw (hlt | ⟨n, b, h, hmax, hend⟩)
    · have := (hlaw [] (rpcParseContainer_of_lt hcrc hlt maxMsgs)).length_le
      omega
    · obtain ⟨-, hrest⟩ := read_count h
      obtain ⟨msgs, hparse, hlen⟩ := parse_endsInHeader (r := (tlReaderInit data).advance 8)
        (by rw [hrest]; exact hend)
      have := (hlaw msgs (by
        rw [rpcParseContainer_frame h, if_neg (by omega)]; exact hparse)).length_le
      rw [length_rest, data_advance, pos_advance] at hlen
      have hdata : (tlReaderInit data).data = data := rfl
      have hzero : (tlReaderInit data).pos = 0 := rfl
      rw [hdata, hzero] at hlen
      omega
  · intro hend msgs hparse
    have h8 : 8 ≤ data.length := Nat.not_lt.mp fun hlt => hend (Or.inl hlt)
    have hframe := eq_frame hcrc h8
    rw [rpcParseContainer_frame hframe] at hparse
    split_ifs at hparse with hmax
    obtain ⟨-, hrest⟩ := read_count hframe
    rcases parse_cases _ hparse with ⟨hcount, hwf, t, ht⟩ | hcut
    · exact isContainerOf_frame hframe hcount hwf (hrest.symm.trans ht)
    · exact absurd (Or.inr ⟨_, _, hframe, Nat.not_lt.mp hmax, hrest ▸ hcut⟩) hend

def oneMessage : Bytes :=
  u32Bytes crcMsgContainer ++ (u32Bytes 1 ++ recordBytes ⟨0x11, 1, [1, 2, 3, 4]⟩)

theorem oneMessage_parsed : ParsesRecords oneMessage 16 := by
  refine (parsesRecords_iff (by decide) 16).mpr ?_
  rintro (hlt | ⟨n, b, h, -, ms, part, hb, -, -, h16, hn⟩)
  · exact absurd hlt (by decide)
  · -- the count is one, so the cut record would have to be the first, and it is all there
    have hcount : u32At oneMessage 4 = n :=
      u32At_of_slice (slice_field h (length_u32Bytes _) (length_u32Bytes _))
    have hone : n = 1 := hcount.symm.trans (by decide)
    have hrec := append_inj_right (append_cancel_left h)
      ((length_u32Bytes 1).trans (length_u32Bytes n).symm)
    have hnil : ms = [] := length_eq_zero_iff.mp (by rw [hone] at hn; exact Nat.succ.inj hn)
    rw [hnil, flatMap_nil, nil_append] at hb
    rw [← hb, ← hrec] at h16
    exact absurd h16 (by decide)

/-- The same container, ending inside the header of its message: a message with an empty body is
returned. -/
theorem cut_header_accepted : ¬ ∀ (data : Bytes) (maxMsgs : ℕ),
    u32At data 0 = crcMsgContainer → ParsesRecords data maxMsgs := by
  intro hall
  have hparse : rpcParseContainer (oneMessage.take 20) 16 = some [⟨0x11, 1, []⟩] := by decide
  have := (hall (oneMessage.take 20) 16 (by decide) _ hparse).length_le
  exact absurd this (by decide)

end TgCli.Infrastructure
