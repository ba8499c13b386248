import TgCli.Domain.UpdatesServer
import TgCli.Infrastructure.UpdatesStateStore

/-!
# `cmd_watch` of `main/tg_cli_ro.c`: the polling loop

`watch` starts from the persisted state, or from `updates.getState`, and polls: ask for the
difference since the state, take the state that comes with it, persist it, print the new messages,
sleep.  A failed poll is repeated later with the same state.

What the outside contributes is given in advance: the network, the outcome of each write to
standard output and of the file operations of each save, and the polls during which a signal
arrives.  The loop is modelled
turn by turn (`watchStep`), and it keeps a trace of its polls.
-/

namespace TgCli.Main

open List Lib TgCli.Core Infrastructure Domain

/-! ## Output -/

/-- A line of output: a message, or the note that there is none.  How an entry is rendered is not
modelled. -/
inductive Line where
  | message (e : HistoryEntry)
  | noNewMessages (pts : Int32) (date : Int64)
  deriving DecidableEq

def Line.entry : Line → Option HistoryEntry
  | message e => some e
  | noNewMessages _ _ => none

def printedEntries (lines : List Line) : List HistoryEntry :=
  lines.filterMap Line.entry

/-- The outcome of a `printf` or `fflush`: `brokenPipe` is a failure with `EPIPE`. -/
inductive WriteResult where
  | ok
  | brokenPipe
  | failed
  deriving DecidableEq

/-- The lines that went out, the outcomes still to come, and whether a broken pipe set `g_stop`. -/
structure Printed where
  lines : List Line
  stdout : List WriteResult
  stop : Bool
  deriving DecidableEq

def printLine (l : Line) (stdout : List WriteResult) : Printed :=
  match stdout.headD .ok with
  | .ok => ⟨[l], stdout.tail, false⟩
  | .brokenPipe => ⟨[], stdout.tail, true⟩
  | .failed => ⟨[], stdout.tail, false⟩

/-- The loop over the messages to print, which a broken pipe ends and another failure does not. -/
def printMessages : List HistoryEntry → List WriteResult → Printed
  | [], stdout => ⟨[], stdout, false⟩
  | e :: es, stdout =>
    let p := printLine (.message e) stdout
    if p.stop then p else
    let rest := printMessages es p.stdout
    { rest with lines := p.lines ++ rest.lines }

/-- `watch_peer_allowed`; no peers are no filter. -/
def watchPeerAllowed (ids : List Int64) (peerId : Int64) : Bool :=
  ids.isEmpty || ids.contains peerId

/-- The options of `watch`: `peers` are the ids that `--peers` was resolved to. -/
structure WatchArgs where
  json : Bool
  quiet : Bool
  peers : List Int64

/-- The output of one poll that has succeeded with new state `st`; `interrupted` says that a signal
has set `g_stop` on the way. -/
def printPoll (args : WatchArgs) (st : UpdatesState) (newMessages : List HistoryEntry)
    (interrupted : Bool) (stdout : List WriteResult) : Printed :=
  let shown := newMessages.filter fun e => watchPeerAllowed args.peers e.peerId
  let p := printMessages shown stdout
  let p :=
    if !args.json && !p.stop && !interrupted && shown.isEmpty && !args.quiet then
      printLine (.noNewMessages st.pts st.date) p.stdout
    else p
  -- the last `fflush`, which is only tried while `g_stop` is clear
  if p.stop || interrupted then p
  else { p with stdout := p.stdout.tail, stop := decide (p.stdout.headD .ok = .brokenPipe) }

/-! ## The loop -/

/-- When, if at all, a `SIGINT` arrives during a turn of the loop. -/
inductive Interrupt where
  | none
  | whilePolling
  | whileSleeping
  deriving DecidableEq

/-- One poll: the state asked for, the response that passed the checks, the state afterwards and
the lines printed. -/
structure Poll where
  request : UpdatesState
  reply : Option Bytes
  next : UpdatesState
  lines : List Line
  deriving DecidableEq

/-- What `watch` works on and with. -/
structure WatchIo where
  session : MtProtoSession
  net : Net
  /-- `platform_cache_dir`. -/
  cacheDir : Option Bytes
  files : InodeFs Bytes
  /-- What becomes of the saves to come; after these, all of them work. -/
  saves : List StateIo
  stdout : List WriteResult
  interrupts : List Interrupt

/-- The loop between two turns; `lines` and `polls` are a trace. -/
structure Watch extends WatchIo where
  state : UpdatesState
  backoff : ℕ
  stop : Bool
  lines : List Line
  polls : List Poll

structure WatchEnv where
  api : ApiEnv
  walkers : MessageWalkers
  args : WatchArgs

def watchBackoffInitS : ℕ := 5

def watchBackoffCapS : ℕ := 300

def nextBackoff (backoff : ℕ) : ℕ :=
  if backoff = 0 then watchBackoffInitS
  else if backoff < watchBackoffCapS then
    if backoff * 2 < watchBackoffCapS then backoff * 2 else watchBackoffCapS
  else backoff

/-- `updates_state_save`; nobody looks at what it returns. -/
def WatchIo.save (io : WatchIo) (st : UpdatesState) : WatchIo :=
  { io with
    files := (updatesStateSave (io.saves.headD .working) io.cacheDir st io.files).2
    saves := io.saves.tail }

variable (env : WatchEnv)

def watchStep (w : Watch) : Watch :=
  if w.stop then w else
  let reply := (differenceRequest env.api w.state w.session w.net).1
  let x := domainUpdatesDifference env.api env.walkers w.state w.session w.net
  let interrupt := w.interrupts.headD .none
  let w' : Watch := { w with session := x.2.1, net := x.2.2, interrupts := w.interrupts.tail }
  match x.1 with
  | none =>
    { w' with
      backoff := nextBackoff w.backoff
      stop := decide (interrupt ≠ .none)
      polls := w.polls ++ [⟨w.state, reply, w.state, []⟩] }
  | some diff =>
    let p := printPoll env.args diff.nextState diff.newMessages (interrupt = .whilePolling) w.stdout
    { w' with
      toWatchIo := { w'.toWatchIo.save diff.nextState with stdout := p.stdout }
      state := diff.nextState
      backoff := 0
      stop := p.stop || decide (interrupt ≠ .none)
      lines := w.lines ++ p.lines
      polls := w.polls ++ [⟨w.state, reply, diff.nextState, p.lines⟩] }

def watchRun : ℕ → Watch → Watch
  | 0, w => w
  | n + 1, w => watchRun n (watchStep env w)

def WatchIo.start (io : WatchIo) (st : UpdatesState) : Watch :=
  { io with state := st, backoff := 0, stop := false, lines := [], polls := [] }

/-- `cmd_watch` from the point where the session is up and the peers are resolved, for `n` turns of
its loop; `none` when there is no state to start from. -/
def cmdWatch (n : ℕ) (io : WatchIo) : Option Watch :=
  match updatesStateLoad io.cacheDir io.files with
  | .ok st => some (watchRun env n (io.start st))
  | _ =>
    let x := domainUpdatesState env.api io.session io.net
    x.1.map fun st =>
      watchRun env n (({ io with session := x.2.1, net := x.2.2 }.save st).start st)

/-! ## What one turn does -/

def Poll.diff (p : Poll) : Option UpdatesDifference :=
  p.reply.bind (parseDifference env.walkers p.request)

/-- A poll as the loop makes it: the state afterwards is the one of the difference, and only new
messages are printed, in their order. -/
structure Poll.Sound (p : Poll) : Prop where
  next_eq : p.next = ((p.diff env).map UpdatesDifference.nextState).getD p.request
  printed : (printedEntries p.lines).Sublist
    (((p.diff env).map UpdatesDifference.newMessages).getD [])

/-- The polls hang together: each asks for the state that the one before it has left. -/
def Chained (st : UpdatesState) : List Poll → UpdatesState → Prop
  | [], st' => st = st'
  | p :: ps, st' => p.request = st ∧ Chained p.next ps st'

theorem printedEntries_append (l l' : List Line) :
    printedEntries (l ++ l') = printedEntries l ++ printedEntries l' :=
  filterMap_append

theorem printedEntries_printLine (l : Line) (stdout : List WriteResult) :
    (printedEntries (printLine l stdout).lines).Sublist (printedEntries [l]) := by
  rw [printLine]
  rcases stdout.headD .ok with _ | _ | _
  · exact List.Sublist.refl _
  · exact nil_sublist _
  · exact nil_sublist _

theorem printedEntries_printMessages (es : List HistoryEntry) (stdout : List WriteResult) :
    (printedEntries (printMessages es stdout).lines).Sublist es := by
  induction es generalizing stdout with
  | nil => exact List.Sublist.refl _
  | cons e es ih =>
    have hline := printedEntries_printLine (.message e) stdout
    rw [printMessages]
    split
    · exact hline.trans (singleton_sublist.mpr mem_cons_self)
    · rw [printedEntries_append]
      exact hline.append (ih _)

theorem printedEntries_printPoll (args : WatchArgs) (st : UpdatesState) (es : List HistoryEntry)
    (interrupted : Bool) (stdout : List WriteResult) :
    (printedEntries (printPoll args st es interrupted stdout).lines).Sublist es := by
  have hmsgs := (printedEntries_printMessages
    (es.filter fun e => watchPeerAllowed args.peers e.peerId) stdout).trans filter_sublist
  have hnote (stdout' : List WriteResult) :
      (printedEntries (printLine (.noNewMessages st.pts st.date) stdout').lines).Sublist es :=
    (printedEntries_printLine _ stdout').trans (nil_sublist es)
  rw [printPoll]
  split_ifs
  · exact hnote _
  · exact hnote _
  · exact hmsgs
  · exact hmsgs

/-- The answer could not be had, and nothing is printed; or it is a difference, whose state is the
next one and whose messages are printed. -/
def Poll.Follows (stdout : List WriteResult) (p : Poll) : Prop :=
  (p.diff env = none ∧ p.next = p.request ∧ p.lines = []) ∨
    ∃ diff interrupted, p.diff env = some diff ∧ p.next = diff.nextState ∧
      p.lines = (printPoll env.args diff.nextState diff.newMessages interrupted stdout).lines

/-- **One turn.**  Either the loop has stopped, or it makes one poll for its state and goes on from
the state that the poll leaves. -/
theorem watchStep_cases (w : Watch) :
    watchStep env w = w ∨ ∃ p : Poll, p.Follows env w.stdout ∧ p.request = w.state ∧
      (watchStep env w).state = p.next ∧ (watchStep env w).polls = w.polls ++ [p] ∧
      (watchStep env w).lines = w.lines ++ p.lines := by
  rw [watchStep]
  split
  · left
    rfl
  · right
    have hdiff := fst_domainUpdatesDifference env.api env.walkers w.state w.session w.net
    generalize differenceRequest env.api w.state w.session w.net = req at hdiff ⊢
    generalize domainUpdatesDifference env.api env.walkers w.state w.session w.net = x at hdiff ⊢
    obtain ⟨diff, s', net'⟩ := x
    cases diff with
    | none =>
      exact ⟨⟨w.state, req.1, w.state, []⟩, Or.inl ⟨hdiff.symm, rfl, rfl⟩, rfl, rfl, rfl,
        (append_nil _).symm⟩
    | some diff =>
      exact ⟨⟨w.state, req.1, diff.nextState, _⟩, Or.inr ⟨diff, _, hdiff.symm, rfl, rfl⟩, rfl, rfl,
        rfl, rfl⟩

theorem Poll.Follows.sound {stdout : List WriteResult} {p : Poll} (h : p.Follows env stdout) :
    p.Sound env := by
  rcases h with ⟨hdiff, hnext, hlines⟩ | ⟨diff, interrupted, hdiff, hnext, hlines⟩
  · refine ⟨by rw [hdiff]; exact hnext, ?_⟩
    rw [hlines]
    exact nil_sublist _
  · refine ⟨by rw [hdiff]; exact hnext, ?_⟩
    rw [hdiff, hlines]
    exact printedEntries_printPoll _ _ _ _ _

/-! ## What a run does -/

/-- The trace of a loop that started from `st₀` with nothing printed. -/
structure Watch.Traced (st₀ : UpdatesState) (w : Watch) : Prop where
  sound : ∀ p ∈ w.polls, p.Sound env
  chained : Chained st₀ w.polls w.state
  lines_eq : w.lines = w.polls.flatMap Poll.lines

theorem Chained.concat {st st' : UpdatesState} {ps : List Poll} (h : Chained st ps st') {p : Poll}
    (hp : p.request = st') : Chained st (ps ++ [p]) p.next := by
  induction ps generalizing st with
  | nil =>
    subst h
    exact ⟨hp, rfl⟩
  | cons q ps ih => exact ⟨h.1, ih h.2⟩

theorem Watch.Traced.watchStep {st₀ : UpdatesState} {w : Watch} (h : w.Traced env st₀) :
    (Main.watchStep env w).Traced env st₀ := by
  rcases watchStep_cases env w with hw | ⟨p, hp, hreq, hstate, hpolls, hlines⟩
  · rw [hw]
    exact h
  · refine ⟨?_, ?_, ?_⟩
    · intro q hq
      rw [hpolls] at hq
      rcases mem_append.mp hq with hq | hq
      · exact h.sound q hq
      · rw [mem_singleton.mp hq]
        exact hp.sound
    · rw [hpolls, hstate]
      exact h.chained.concat hreq
    · rw [hpolls, hlines, h.lines_eq, flatMap_append, flatMap_singleton]

theorem Watch.Traced.watchRun {st₀ : UpdatesState} (n : ℕ) {w : Watch} (h : w.Traced env st₀) :
    (Main.watchRun env n w).Traced env st₀ := by
  induction n generalizing w with
  | zero => exact h
  | succ n ih => exact ih (h.watchStep env)

/-- **Every run of `watch` is traced.** -/
theorem cmdWatch_traced {n : ℕ} {io : WatchIo} {w : Watch} (h : cmdWatch env n io = some w) :
    ∃ st₀, w.Traced env st₀ := by
  have hstart (io : WatchIo) (st : UpdatesState) : (io.start st).Traced env st :=
    ⟨fun _ hp => absurd hp not_mem_nil, rfl, rfl⟩
  rw [cmdWatch] at h
  split at h
  case h_1 st _ => exact ⟨st, Option.some_inj.mp h ▸ (hstart io st).watchRun env n⟩
  case h_2 =>
    obtain ⟨st, -, hrun⟩ := Option.map_eq_some_iff.mp h
    exact ⟨st, hrun ▸ (hstart _ st).watchRun env n⟩

end TgCli.Main
