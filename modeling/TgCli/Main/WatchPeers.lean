import TgCli.Domain.MessagePeer
import TgCli.Domain.ResolveReply
import TgCli.Main.WatchReports

/-!
# `watch --peers` of `main/tg_cli_ro.c`

The list of peers is split at its commas and each name is turned into a number: a numeral stands for
itself, `self` for 0, and any other name is resolved.  A message is printed if the number noted for
its peer is among them, or if there are none.

A number is less than a peer.  The number of a resolved name is shared by peers of the other kinds;
0 is also what is noted for every service message; and a list of blanks and commas has no numbers,
so that nothing is filtered.  `watchPrintsNamed_iff` says which lists have none of these defects,
and `cmdWatch_printsNamed` that with such a list a whole run prints only what was asked for.
-/

namespace TgCli.Main

open List Lib TgCli.Core Infrastructure Domain

/-! ## The list -/

def watchPeersMax : ℕ := 64

/-- The tokens of `strtok(buf, ",")`. -/
def commaTokens (spec : Bytes) : List Bytes :=
  (spec.splitOn 0x2C).filter (· ≠ [])

def isBlank (b : UInt8) : Bool :=
  b = 0x20 ∨ b = 0x09

def stripBlanks (tok : Bytes) : Bytes :=
  (tok.dropWhile isBlank).rdropWhile isBlank

section Resolve

variable {σ : Type} (resolve : Bytes → σ → Option ResolvedPeer × σ)

/-- The number for a name; `resolve` is `domain_resolve_username` on the state of the session. -/
def watchPeerId (tok : Bytes) (s : σ) : Option Int64 × σ :=
  if tok = ascii "self" then (some 0, s)
  else if strtolEnd tok = [] then (some (Int64.ofInt (strtol tok)), s)
  else
    let x := resolve tok s
    (x.1.map ResolvedPeer.id, x.2)

/-- The loop over the tokens, with `room` places left. -/
def watchPeersLoop : List Bytes → ℕ → σ → Option (List Int64) × σ
  | [], _, s => (some [], s)
  | _ :: _, 0, s => (some [], s)
  | tok :: toks, room + 1, s =>
    let tok := stripBlanks tok
    if tok = [] then watchPeersLoop toks (room + 1) s
    else
      let x := watchPeerId resolve tok s
      match x.1 with
      | none => (none, x.2)
      | some id =>
        let rest := watchPeersLoop toks room x.2
        (rest.1.map (id :: ·), rest.2)

/-- `watch_peers_resolve`, with `none` for -1. -/
def watchPeersResolve (spec : Bytes) (s : σ) : Option (List Int64) × σ :=
  if spec = [] then (some [], s)
  else if 4096 ≤ spec.length then (none, s)
  else watchPeersLoop resolve (commaTokens spec) watchPeersMax s

end Resolve

/-! ## What the names stand for -/

def peerNames (spec : Bytes) : List Bytes :=
  ((commaTokens spec).map stripBlanks).filter (· ≠ [])

/-- Who is who: the number of the own account, and the peer of each username. -/
structure Directory where
  me : Int64
  who : Bytes → Option Peer

namespace Directory

variable (d : Directory)

/-- A name stands for a peer: `self` for the own account, a numeral for every peer with this number,
another name for the peer that the directory has. -/
def Denotes (name : Bytes) (p : Peer) : Prop :=
  if name = ascii "self" then p = (.user, d.me)
  else match numeral name with
    | some v => p.2.toInt = v
    | none => d.who name = some p

/-- One of the names in the list stands for the peer. -/
def Named (spec : Bytes) (p : Peer) : Prop :=
  ∃ name ∈ peerNames spec, d.Denotes name p

/-- The number by which messages are compared with a name. -/
def numberOf (name : Bytes) : Option Int64 :=
  if name = ascii "self" then some 0
  else match numeral name with
    | some v => some (Int64.ofInt (max (-2 ^ 63) (min (2 ^ 63 - 1) v)))
    | none => (d.who name).map Prod.snd

/-- The list has a name, and the numbers of those names that there is room for are not 0, each with
its peers of every kind in the list. -/
structure Whole (spec : Bytes) : Prop where
  nonempty : peerNames spec ≠ []
  named : ∀ name ∈ (peerNames spec).take watchPeersMax, ∀ id, d.numberOf name = some id →
    id ≠ 0 ∧ ∀ kind, kind ≠ .unknown → d.Named spec (kind, id)

end Directory

/-- The answers of the resolver are those of the directory. -/
def Answers {σ : Type} (resolve : Bytes → σ → Option ResolvedPeer × σ) (d : Directory) : Prop :=
  ∀ name s rp, (resolve name s).1 = some rp → d.who name = some (rp.kind, rp.id)

/-! ## The messages of a poll -/

/-- Where the messages begin that the loop makes its entries of. -/
def messageStarts (count room : ℕ) (r : TlReader) : List TlReader :=
  (messageAttempts (parseMessage messageWalkers) count room r).filter fun r =>
    (polledEntry r).isKept

def pollStarts (resp : Bytes) : List TlReader :=
  let crc := tlReadUint32 (tlReaderInit resp)
  if crc.1 ≠ tlUpdatesDifference ∧ crc.1 ≠ tlUpdatesDifferenceSlice then [] else
  let vec := tlReadUint32 crc.2
  if vec.1 ≠ tlVector then [] else
  let count := tlReadUint32 vec.2
  messageStarts count.1.toNat updatesMaxMessages count.2

/-- Whatever the server answers and however the output fares, the messages printed are messages of
the answer whose peers are in the list. -/
def WatchPrintsNamed (d : Directory) (spec : Bytes) (ids : List Int64) : Prop :=
  ∀ (args : WatchArgs) (st : UpdatesState) (resp : Bytes) (diff : UpdatesDifference)
    (interrupted : Bool) (stdout : List WriteResult),
    args.peers = ids → parseDifference messageWalkers st resp = some diff →
      ∃ starts : List TlReader, starts.Sublist (pollStarts resp) ∧
        printedEntries (printPoll args diff.nextState diff.newMessages interrupted stdout).lines =
          starts.map polledEntry ∧
        ∀ r ∈ starts, ∃ p, messagePeer r = some p ∧ d.Named spec p

/-! ## The numbers of a list -/

variable {p : Peer} {d : Directory} {t spec : Bytes} {ids : List Int64} {σ : Type}
  {resolve : Bytes → σ → Option ResolvedPeer × σ} {s : σ}

theorem watchPeerId_eq (hd : Answers resolve d) {tok : Bytes} (htok : tok ≠ []) {id : Int64}
    (h : (watchPeerId resolve tok s).1 = some id) : d.numberOf tok = some id := by
  rw [watchPeerId] at h
  rw [Directory.numberOf]
  split_ifs at h ⊢ with hself hend
  · exact h
  · obtain ⟨v, hv⟩ := Option.isSome_iff_exists.mp ((strtolEnd_eq_nil_iff htok).mp hend)
    rw [hv]
    rw [strtol_of_numeral hv] at h
    exact h
  · have hnone : numeral tok = none := by
      rw [← Option.not_isSome_iff_eq_none, ← strtolEnd_eq_nil_iff htok]
      exact hend
    rw [hnone]
    obtain ⟨rp, hrp, rfl⟩ := Option.map_eq_some_iff.mp h
    exact congrArg (Option.map Prod.snd) (hd tok s rp hrp)

theorem watchPeersLoop_eq (hd : Answers resolve d) {toks : List Bytes} {room : ℕ}
    (h : (watchPeersLoop resolve toks room s).1 = some ids) :
    (((toks.map stripBlanks).filter (· ≠ [])).take room).map d.numberOf = ids.map some := by
  induction toks generalizing room s ids with
  | nil =>
    cases h
    simp
  | cons tok toks ih =>
    rcases room with _ | room
    · cases h
      simp
    · rw [watchPeersLoop] at h
      rw [map_cons, filter_cons]
      dsimp only at h
      by_cases htok : stripBlanks tok = []
      · rw [if_pos htok] at h
        rw [if_neg (by simp [htok])]
        exact ih h
      · rw [if_neg htok] at h
        rw [if_pos (by simp [htok]), take_succ_cons, map_cons]
        rcases hid : (watchPeerId resolve (stripBlanks tok) s).1 with _ | id <;> rw [hid] at h
        · cases h
        · obtain ⟨ids, hrest, rfl⟩ := Option.map_eq_some_iff.mp h
          rw [ih hrest, watchPeerId_eq hd htok hid, map_cons]

/-- **The numbers of an accepted list** are those of its first 64 names. -/
theorem watchPeersResolve_eq (hd : Answers resolve d)
    (h : (watchPeersResolve resolve spec s).1 = some ids) : spec.length < 4096 ∧
      ((peerNames spec).take watchPeersMax).map d.numberOf = ids.map some := by
  rw [watchPeersResolve] at h
  split_ifs at h with hnil hlong
  · subst hnil
    cases h
    exact ⟨by decide, rfl⟩
  · exact ⟨by omega, watchPeersLoop_eq hd h⟩

/-! ## The messages of a poll -/

theorem messageLoop_eq_map (count room : ℕ) (r : TlReader) :
    messageLoop (parseMessage messageWalkers) count room r =
      (messageStarts count room r).map polledEntry := by
  rw [messageLoop_eq_attempts, filter_map]
  rfl

theorem newMessages_eq_map {st : UpdatesState} {resp : Bytes} {diff : UpdatesDifference}
    (h : parseDifference messageWalkers st resp = some diff) :
    diff.newMessages = (pollStarts resp).map polledEntry := by
  rw [parseDifference] at h
  rw [pollStarts]
  generalize tlReadUint32 (tlReaderInit resp) = crc at h ⊢
  dsimp only at h ⊢
  by_cases hempty : crc.1 = tlUpdatesDifferenceEmpty
  · rw [if_pos hempty] at h
    cases h
    rw [if_pos (by rw [hempty]; decide)]
    rfl
  by_cases hlong : crc.1 = crcUpdatesDifferenceTooLong
  · rw [if_neg hempty, if_pos hlong] at h
    cases h
    rw [if_pos (by rw [hlong]; decide)]
    rfl
  rw [if_neg hempty, if_neg hlong] at h
  split_ifs at h ⊢
  cases h
  exact messageLoop_eq_map _ _ _

/-! ## What is printed -/

theorem printedEntries_printPoll_filter (args : WatchArgs) (st : UpdatesState)
    (es : List HistoryEntry) (interrupted : Bool) (stdout : List WriteResult) :
    (printedEntries (printPoll args st es interrupted stdout).lines).Sublist
      (es.filter fun e => watchPeerAllowed args.peers e.peerId) := by
  have hmsgs := printedEntries_printMessages
    (es.filter fun e => watchPeerAllowed args.peers e.peerId) stdout
  have hnote (stdout' : List WriteResult) :
      (printedEntries (printLine (.noNewMessages st.pts st.date) stdout').lines).Sublist
        (es.filter fun e => watchPeerAllowed args.peers e.peerId) :=
    (printedEntries_printLine _ stdout').trans (nil_sublist _)
  rw [printPoll]
  split_ifs
  · exact hnote _
  · exact hnote _
  · exact hmsgs
  · exact hmsgs

theorem mem_ids_of_allowed {pid : Int64} (hids : ids ≠ [])
    (h : watchPeerAllowed ids pid = true) : pid ∈ ids := by
  rw [watchPeerAllowed, Bool.or_eq_true, List.isEmpty_iff, List.contains_iff_mem] at h
  exact h.resolve_left hids

theorem mem_ids_iff
    (hids : ((peerNames spec).take watchPeersMax).map d.numberOf = ids.map some) (id : Int64) :
    id ∈ ids ↔ ∃ name ∈ (peerNames spec).take watchPeersMax, d.numberOf name = some id := by
  rw [← mem_map, hids, mem_map]
  simp

theorem ids_eq_nil_iff
    (hids : ((peerNames spec).take watchPeersMax).map d.numberOf = ids.map some) :
    ids = [] ↔ peerNames spec = [] := by
  rw [← map_eq_nil_iff (f := some), ← hids, map_eq_nil_iff, take_eq_nil_iff]
  simp [watchPeersMax]

/-- **A whole list lets only its own peers through.** -/
theorem watchPrintsNamed_of_whole
    (hids : ((peerNames spec).take watchPeersMax).map d.numberOf = ids.map some)
    (hwhole : d.Whole spec) : WatchPrintsNamed d spec ids := by
  rintro args st resp diff interrupted stdout rfl hdiff
  have hprinted := printedEntries_printPoll_filter args diff.nextState diff.newMessages interrupted
    stdout
  rw [newMessages_eq_map hdiff, filter_map] at hprinted
  obtain ⟨starts, hsub, heq⟩ := sublist_map_iff.mp hprinted
  refine ⟨starts, hsub.trans filter_sublist, ?_, fun r hr => ?_⟩
  · rw [newMessages_eq_map hdiff]
    exact heq
  · have hallowed : watchPeerAllowed args.peers (polledEntry r).peerId = true :=
      (mem_filter.mp (hsub.subset hr)).2
    have hmem := mem_ids_of_allowed (mt (ids_eq_nil_iff hids).mp hwhole.nonempty) hallowed
    obtain ⟨name, hname, hnumber⟩ := (mem_ids_iff hids _).mp hmem
    obtain ⟨hne, hnamed⟩ := hwhole.named name hname _ hnumber
    obtain ⟨kind, hkind, hpeer⟩ := messagePeer_of_peerId_ne hne
    exact ⟨_, hpeer, hnamed kind hkind⟩

/-! ## Polls of one message -/

/-- A `message` of a peer, without a text. -/
def plainBody (p : Peer) : Bytes :=
  u32Bytes tlMessage ++ (u32Bytes 0 ++ (u32Bytes 0 ++ (u32Bytes 7 ++ (u32Bytes (peerCrc p.1) ++
    (u64Bytes p.2.toUInt64 ++ (u32Bytes 100 ++ u32Bytes 0))))))

/-- A `messageService` of a peer: its history was cleared. -/
def serviceBody (p : Peer) : Bytes :=
  u32Bytes tlMessageService ++ (u32Bytes 0 ++ (u32Bytes 7 ++ (u32Bytes (peerCrc p.1) ++
    (u64Bytes p.2.toUInt64 ++ (u32Bytes 100 ++ u32Bytes crcMessageActionHistoryClear)))))

theorem readPeer_of_rest {r : TlReader} (hp : p.1 ≠ .unknown)
    (h : r.rest = u32Bytes (peerCrc p.1) ++ (u64Bytes p.2.toUInt64 ++ t)) :
    readPeer r = some p := by
  have hword : u32Bytes (peerCrc p.1) ++ u64Bytes p.2.toUInt64 ≠ [] := word_ne_nil _ _
  have hleft := Walk.Reads.le_left (h.trans (append_assoc _ _ _).symm) hword
  rw [length_append, length_u32Bytes, length_u64Bytes] at hleft
  obtain ⟨h1, hr1⟩ := tlReadUint32_of_rest h
  obtain ⟨h2, -⟩ := tlReadInt64_of_rest hr1
  rw [readPeer, if_neg (by omega)]
  dsimp only
  rw [h1, h2, resolvedKind_peerCrc hp]
  rfl

theorem polledEntry_plain {r : TlReader} (hp : p.1 ≠ .unknown) (h : r.rest = plainBody p ++ t) :
    messagePeer r = some p ∧ (polledEntry r).id = 7 ∧ (polledEntry r).peerId = p.2 := by
  have hok : tlReaderOk r = true := tlReaderOk_of_rest h (word_ne_nil _ _)
  obtain ⟨h1, hr1⟩ := tlReadUint32_of_rest h
  obtain ⟨h2, hr2⟩ := tlReadUint32_of_rest hr1
  obtain ⟨h3, hr3⟩ := tlReadUint32_of_rest hr2
  obtain ⟨h4, hr4⟩ := tlReadInt32_of_rest (v := 7) hr3
  have hpeer : messagePeer r = some p := by
    rw [messagePeer, h1, if_neg (by decide), if_pos rfl, h2, readPeerBehindFrom, if_neg (by decide)]
    exact readPeer_of_rest hp hr4
  have hkey := key_parseMessage_message hok h1
  rw [hpeer, h4] at hkey
  exact ⟨hpeer, congrArg Prod.fst hkey, congrArg Prod.snd hkey⟩

theorem polledEntry_service {r : TlReader} (hp : p.1 ≠ .unknown) (h : r.rest = serviceBody p ++ t) :
    messagePeer r = some p ∧ (polledEntry r).id = 7 ∧ (polledEntry r).peerId = 0 := by
  have hok : tlReaderOk r = true := tlReaderOk_of_rest h (word_ne_nil _ _)
  obtain ⟨h1, hr1⟩ := tlReadUint32_of_rest h
  obtain ⟨h2, hr2⟩ := tlReadUint32_of_rest hr1
  obtain ⟨h3, hr3⟩ := tlReadInt32_of_rest (v := 7) hr2
  have hpeer : messagePeer r = some p := by
    rw [messagePeer, h1, if_neg (by decide), if_neg (by decide), if_pos rfl, h2, readPeerBehindFrom,
      if_neg (by decide)]
    exact readPeer_of_rest hp hr3
  have hkey := key_parseMessage_service hok h1
  rw [h3] at hkey
  exact ⟨hpeer, congrArg Prod.fst hkey, congrArg Prod.snd hkey⟩

def oneMessage (body : Bytes) : Answer :=
  .difference ⟨[⟨5, body⟩], [], [], [], [], ⟨5, 0, 100, 1, 0⟩⟩

theorem pollStarts_oneMessage (body : Bytes) :
    ∃ r t, r.rest = body ++ t ∧
      pollStarts (oneMessage body).bytes = messageStarts 1 updatesMaxMessages r := by
  have hbytes : (tlReaderInit (oneMessage body).bytes).rest =
      u32Bytes tlUpdatesDifference ++ (u32Bytes tlVector ++ (u32Bytes 1 ++ (body ++
        Difference.tailBytes ⟨[⟨5, body⟩], [], [], [], [], ⟨5, 0, 100, 1, 0⟩⟩))) := by
    simp [oneMessage, Answer.bytes, Difference.bytes, vectorBytes]
  obtain ⟨h1, hr1⟩ := tlReadUint32_of_rest hbytes
  obtain ⟨h2, hr2⟩ := tlReadUint32_of_rest hr1
  obtain ⟨h3, hr3⟩ := tlReadUint32_of_rest hr2
  refine ⟨_, _, hr3, ?_⟩
  rw [pollStarts]
  dsimp only
  rw [h1, h2, h3, if_neg (by decide), if_neg (by decide)]
  rfl

theorem printedEntries_printPoll_single {st : UpdatesState} {e : HistoryEntry}
    (h : watchPeerAllowed ids e.peerId = true) :
    printedEntries (printPoll ⟨true, true, ids⟩ st [e] false []).lines = [e] := by
  have hshown : [e].filter (fun e => watchPeerAllowed ids e.peerId) = [e] :=
    filter_cons_of_pos (p := fun e : HistoryEntry => watchPeerAllowed ids e.peerId) h
  rw [printPoll]
  rw [hshown]
  rfl

theorem WatchPrintsNamed.named (h : WatchPrintsNamed d spec ids) {body : Bytes} {pid : Int64}
    (hbody : ∀ {r t}, r.rest = body ++ t →
      messagePeer r = some p ∧ (polledEntry r).id = 7 ∧ (polledEntry r).peerId = pid)
    (hpid : watchPeerAllowed ids pid = true) : d.Named spec p := by
  obtain ⟨r, t, hr, hstarts⟩ := pollStarts_oneMessage body
  obtain ⟨hpeer, hid, hpeerId⟩ := hbody hr
  have hkept : (polledEntry r).isKept = true := by
    simp [HistoryEntry.isKept, hid]
  have hone : pollStarts (oneMessage body).bytes = [r] := by
    rw [hstarts, messageStarts, updatesMaxMessages, messageAttempts, filter_cons, if_pos hkept]
    split_ifs <;> rfl
  obtain ⟨r', -, hdiff⟩ := parseDifference_report messageWalkers ⟨0, 0, 0, 0, 0⟩
    (show (oneMessage body).report = some _ from rfl)
  obtain ⟨starts, hsub, hprinted, hnamed⟩ := h ⟨true, true, ids⟩ _ _ _ false [] rfl hdiff
  rw [newMessages_eq_map hdiff, hone, map_singleton,
    printedEntries_printPoll_single (by rw [hpeerId, hpid])] at hprinted
  rw [hone] at hsub
  have hlen : starts.length = 1 := by
    rw [← length_map (f := polledEntry), ← hprinted, length_singleton]
  have hstart : starts = [r] := hsub.eq_of_length hlen
  obtain ⟨p', hp', hp'named⟩ := hnamed r (by rw [hstart]; exact mem_singleton_self r)
  rw [hpeer] at hp'
  cases hp'
  exact hp'named

/-! ## Peers that are not in a list -/

theorem length_splitOn_le (c : UInt8) (s : Bytes) : (s.splitOn c).length ≤ s.length + 1 := by
  induction s with
  | nil => rw [splitOn_nil, length_singleton, length_nil]
  | cons b s ih =>
    rw [splitOn] at ih ⊢
    rw [splitOnP_cons_eq_if_modifyHead, length_cons]
    split_ifs
    · rw [length_cons]
      omega
    · rw [length_modifyHead]
      omega

theorem length_peerNames_le (spec : Bytes) : (peerNames spec).length ≤ spec.length + 1 := by
  rw [peerNames]
  refine (length_filter_le _ _).trans ?_
  rw [length_map, commaTokens]
  exact (length_filter_le _ _).trans (length_splitOn_le _ _)

/-- The number of the peers that a name stands for. -/
def Directory.valueOf (d : Directory) (name : Bytes) : ℤ :=
  if name = ascii "self" then d.me.toInt
  else match numeral name with
    | some v => v
    | none => ((d.who name).map fun p => p.2.toInt).getD 0

theorem Directory.Denotes.value_eq {name : Bytes}
    (h : d.Denotes name p) : d.valueOf name = p.2.toInt := by
  rw [Directory.Denotes] at h
  rw [Directory.valueOf]
  split_ifs at h ⊢
  · rw [h]
  · rcases hv : numeral name with _ | v <;> rw [hv] at h
    · rw [h]
      rfl
    · exact h.symm

theorem exists_not_named (d : Directory) (h : spec.length < 4096) :
    ∃ id, ∀ kind, ¬ d.Named spec (kind, id) := by
  classical
  -- more numbers than the list has bytes
  have hcard : ((peerNames spec).map d.valueOf).toFinset.card <
      ((Finset.range 5000).image (Nat.cast : ℕ → ℤ)).card := by
    rw [Finset.card_image_of_injective _ Nat.cast_injective, Finset.card_range]
    have hle := toFinset_card_le ((peerNames spec).map d.valueOf)
    have hnames := length_peerNames_le spec
    rw [length_map] at hle
    omega
  obtain ⟨v, hv, hnot⟩ := Finset.exists_mem_notMem_of_card_lt_card hcard
  obtain ⟨n, hn, rfl⟩ := Finset.mem_image.mp hv
  rw [Finset.mem_range] at hn
  refine ⟨Int64.ofInt n, fun kind => ?_⟩
  rintro ⟨name, hname, hdenotes⟩
  have hvalue := hdenotes.value_eq
  rw [Int64.toInt_ofInt_of_le (by omega) (by omega)] at hvalue
  rw [mem_toFinset, mem_map] at hnot
  exact hnot ⟨name, hname, hvalue⟩

/-- **`watch --peers` prints only messages of the peers in the list exactly if the list is whole.**
-/
theorem watchPrintsNamed_iff {σ : Type} {resolve : Bytes → σ → Option ResolvedPeer × σ}
    {d : Directory} (hd : Answers resolve d) {spec : Bytes} {s : σ} {ids : List Int64}
    (h : (watchPeersResolve resolve spec s).1 = some ids) :
    WatchPrintsNamed d spec ids ↔ d.Whole spec := by
  obtain ⟨hlen, hids⟩ := watchPeersResolve_eq hd h
  constructor
  · intro hprints
    refine ⟨fun hnil => ?_, fun name hname id hnumber => ?_⟩
    · have hempty : ids = [] := (ids_eq_nil_iff hids).mpr hnil
      have hallowed : watchPeerAllowed ids 1 = true := by
        rw [hempty]
        rfl
      obtain ⟨name, hname, -⟩ :=
        hprints.named (polledEntry_plain (p := (.user, 1)) (by decide)) hallowed
      rw [hnil] at hname
      exact absurd hname not_mem_nil
    · have hmem : id ∈ ids := (mem_ids_iff hids id).mpr ⟨name, hname, hnumber⟩
      have hallowed : watchPeerAllowed ids id = true := by
        rw [watchPeerAllowed, Bool.or_eq_true, contains_iff_mem]
        exact .inr hmem
      refine ⟨?_, fun kind hkind => ?_⟩
      · rintro rfl
        obtain ⟨id, hnot⟩ := exists_not_named d hlen
        have hchannel : ResolvedKind.channel ≠ .unknown := by decide
        exact hnot .channel
          (hprints.named (polledEntry_service (p := (.channel, id)) hchannel) hallowed)
      · exact hprints.named (polledEntry_plain (p := (kind, id)) hkind) hallowed
  · exact watchPrintsNamed_of_whole hids

/-! ### Four lists -/

/-- `domain_resolve_username` with an empty cache, for a server that knows every name as user 5. -/
def demoResolve (name : Bytes) (s : Unit) : Option ResolvedPeer × Unit :=
  ((domainResolveUsername ⟨name, fun _ => some (resolvedUser 5), 0, 0⟩ .empty).1, s)

/-- The directory of that server; the own account is user 1. -/
def demoDirectory : Directory where
  me := 1
  who name := (demoResolve name ()).1.map fun rp => (rp.kind, rp.id)

theorem answers_demoResolve : Answers demoResolve demoDirectory := by
  intro name s rp h
  exact congrArg (Option.map fun rp : ResolvedPeer => (rp.kind, rp.id)) h

/-- The name of user 5 next to the number 5, with a blank and an empty place. -/
theorem watchPrintsNamed_name_and_number :
    (watchPeersResolve demoResolve (ascii "@a,, 5") ()).1 = some [5, 5] ∧
      WatchPrintsNamed demoDirectory (ascii "@a,, 5") [5, 5] := by
  have hids : (watchPeersResolve demoResolve (ascii "@a,, 5") ()).1 = some [5, 5] := by
    decide +kernel
  refine ⟨hids, (watchPrintsNamed_iff answers_demoResolve hids).mpr ⟨by decide +kernel, ?_⟩⟩
  have hnames : peerNames (ascii "@a,, 5") = [ascii "@a", ascii "5"] := by decide +kernel
  have hnumbers : ∀ name ∈ (peerNames (ascii "@a,, 5")).take watchPeersMax,
      demoDirectory.numberOf name = some 5 := by decide +kernel
  have hfive : ∀ kind, demoDirectory.Denotes (ascii "5") (kind, 5) := fun kind => rfl
  intro name hname id hid
  rw [hnumbers name hname] at hid
  cases hid
  refine ⟨by decide, fun kind _ => ⟨ascii "5", ?_, hfive kind⟩⟩
  rw [hnames]
  exact mem_cons_of_mem _ mem_cons_self

/-- A list of blanks and commas lets everything through, `self` lets the service messages of a
channel through, and the name of user 5 those of channel 5. -/
theorem not_watchPrintsNamed_lists :
    (∃ ids, (watchPeersResolve demoResolve (ascii " , ") ()).1 = some ids ∧
        ¬ WatchPrintsNamed demoDirectory (ascii " , ") ids) ∧
      (∃ ids, (watchPeersResolve demoResolve (ascii "self") ()).1 = some ids ∧
        ¬ WatchPrintsNamed demoDirectory (ascii "self") ids) ∧
      ∃ ids, (watchPeersResolve demoResolve (ascii "@a") ()).1 = some ids ∧
        ¬ WatchPrintsNamed demoDirectory (ascii "@a") ids := by
  refine ⟨?_, ?_, ?_⟩
  · refine ⟨[], by decide +kernel, fun h => ?_⟩
    obtain ⟨name, hname, -⟩ :=
      h.named (polledEntry_plain (p := (.channel, 5)) (by decide)) (by decide)
    have hnames : peerNames (ascii " , ") = [] := by decide +kernel
    rw [hnames] at hname
    exact absurd hname not_mem_nil
  · refine ⟨[0], by decide +kernel, fun h => ?_⟩
    obtain ⟨name, hname, hdenotes⟩ :=
      h.named (polledEntry_service (p := (.channel, 5)) (by decide)) (by decide)
    have hnames : peerNames (ascii "self") = [ascii "self"] := by decide +kernel
    rw [hnames, mem_singleton] at hname
    rw [hname, Directory.Denotes, if_pos rfl] at hdenotes
    exact absurd hdenotes (by decide)
  · refine ⟨[5], by decide +kernel, fun h => ?_⟩
    obtain ⟨name, hname, hdenotes⟩ :=
      h.named (polledEntry_plain (p := (.channel, 5)) (by decide)) (by decide)
    have hnames : peerNames (ascii "@a") = [ascii "@a"] := by decide +kernel
    have hnone : numeral (ascii "@a") = none := by decide +kernel
    have hwho : demoDirectory.who (ascii "@a") = some (.user, 5) := by decide +kernel
    rw [hnames, mem_singleton] at hname
    rw [hname, Directory.Denotes, if_neg (by decide), hnone] at hdenotes
    exact absurd (hwho.symm.trans hdenotes) (by decide)

/-! ## A whole run -/

/-- The messages printed after a poll are messages of its answer whose peers are in the list. -/
def Poll.PrintsNamed (d : Directory) (spec : Bytes) (p : Poll) : Prop :=
  ∃ starts : List TlReader, starts.Sublist (p.reply.elim [] pollStarts) ∧
    printedEntries p.lines = starts.map polledEntry ∧
    ∀ r ∈ starts, ∃ q, messagePeer r = some q ∧ d.Named spec q

section Run

variable {d : Directory} {spec : Bytes} {env : WatchEnv}

theorem Poll.Follows.printsNamed (henv : env.walkers = messageWalkers)
    (h : WatchPrintsNamed d spec env.args.peers) {stdout : List WriteResult} {p : Poll}
    (hp : p.Follows env stdout) : p.PrintsNamed d spec := by
  rcases hp with ⟨-, -, hlines⟩ | ⟨diff, interrupted, hdiff, -, hlines⟩
  · exact ⟨[], nil_sublist _, by rw [hlines]; rfl, by simp⟩
  · obtain ⟨resp, hresp, hparse⟩ := Option.bind_eq_some_iff.mp hdiff
    rw [henv] at hparse
    obtain ⟨starts, hsub, hprinted, hnamed⟩ :=
      h env.args p.request resp diff interrupted stdout rfl hparse
    refine ⟨starts, ?_, by rw [hlines]; exact hprinted, hnamed⟩
    rw [hresp]
    exact hsub

theorem watchRun_printsNamed (henv : env.walkers = messageWalkers)
    (h : WatchPrintsNamed d spec env.args.peers) (n : ℕ) {w : Watch}
    (hw : ∀ p ∈ w.polls, p.PrintsNamed d spec) :
    ∀ p ∈ (watchRun env n w).polls, p.PrintsNamed d spec := by
  induction n generalizing w with
  | zero => exact hw
  | succ n ih =>
    refine ih ?_
    rcases watchStep_cases env w with hstep | ⟨q, hq, -, -, hstep, -⟩ <;> rw [hstep]
    · exact hw
    · intro p hp
      rcases mem_append.mp hp with hp | hp
      · exact hw p hp
      · rw [mem_singleton.mp hp]
        exact hq.printsNamed henv h

/-- **In every run of `watch` with a whole list, every poll prints only messages of the peers in the
list.**  The peers of the run are what `watch_peers_resolve` makes of the list. -/
theorem cmdWatch_printsNamed (henv : env.walkers = messageWalkers) {σ : Type}
    {resolve : Bytes → σ → Option ResolvedPeer × σ} (hd : Answers resolve d) {s : σ}
    (hpeers : (watchPeersResolve resolve spec s).1 = some env.args.peers)
    (hwhole : d.Whole spec) {n : ℕ} {io : WatchIo} {w : Watch} (h : cmdWatch env n io = some w) :
    ∀ p ∈ w.polls, p.PrintsNamed d spec := by
  have hprints := watchPrintsNamed_of_whole (watchPeersResolve_eq hd hpeers).2 hwhole
  have hrun (io : WatchIo) (st : UpdatesState) :
      ∀ p ∈ (watchRun env n (io.start st)).polls, p.PrintsNamed d spec :=
    watchRun_printsNamed henv hprints n fun p hp => absurd hp not_mem_nil
  rw [cmdWatch] at h
  split at h
  case h_1 st _ =>
    cases h
    exact hrun io st
  case h_2 =>
    obtain ⟨st, -, rfl⟩ := Option.map_eq_some_iff.mp h
    exact hrun _ st

end Run

/-- Two polls of a server whose answer has a message of user 42. -/
theorem cmdWatch_printsNamed_number :
    let env : WatchEnv := ⟨demoWatchEnv.api, messageWalkers, ⟨true, false, [42]⟩⟩
    ∃ w, cmdWatch env 2 (demoWatchIo (.difference (demoDifference [demoMessage] 5))) = some w ∧
      printedEntries w.lines = [demoEntry, demoEntry] ∧
      ∀ p ∈ w.polls, p.PrintsNamed demoDirectory (ascii "42") := by
  intro env
  have hnames : (peerNames (ascii "42")).take watchPeersMax = [ascii "42"] := by decide +kernel
  have hrun : cmdWatch env 2 (demoWatchIo (.difference (demoDifference [demoMessage] 5))) =
    some _ := cmdWatch_of_load (load_demoWatchIo _)
  have hwalkers : env.walkers = messageWalkers := rfl
  let resolve (_ : Bytes) (s : Unit) : Option ResolvedPeer × Unit := (none, s)
  have hd : Answers resolve demoDirectory := fun _ _ _ h => absurd h (Option.some_ne_none _).symm
  have hpeers : (watchPeersResolve resolve (ascii "42") ()).1 = some env.args.peers := by
    decide +kernel
  refine ⟨_, hrun, by decide +kernel, cmdWatch_printsNamed hwalkers hd hpeers ⟨?_, ?_⟩ hrun⟩
  · decide +kernel
  · intro name hname id hid
    rw [hnames, mem_singleton] at hname
    subst hname
    have hnumber : demoDirectory.numberOf (ascii "42") = some 42 := by decide +kernel
    cases hnumber.symm.trans hid
    exact ⟨by decide, fun kind _ => ⟨ascii "42", by decide +kernel, rfl⟩⟩

end TgCli.Main
