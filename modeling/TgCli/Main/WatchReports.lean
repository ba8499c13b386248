import Mathlib.Data.List.Forall2
import TgCli.Main.Watch

/-!
# What `watch` reports

The polls of a run are served by an honest server whose log grows between them.  The loop reports
every message once if the state it goes on with after a report is the state that came with it.  It
goes on with the state it had asked for (`watch_reports_once_iff`).  A process that is started again
goes on from the state that was saved (`watchProcesses_chained`).
-/

namespace TgCli.Main

open List Lib TgCli.Core Infrastructure Domain

/-! ## A run and its server -/

/-- The server at one poll: the log of the account, and the answer it gives, if one arrives. -/
structure Service where
  log : List Message
  answer : Option Answer
  deriving DecidableEq

/-- The messages that are reported, with their state. -/
def Service.report (sv : Service) : Option Difference :=
  sv.answer.bind Answer.report

/-- The poll received this answer, and it is an honest one. -/
structure Serves (sv : Service) (p : Poll) : Prop where
  reply_eq : p.reply = sv.answer.map Answer.bytes
  honest : ∀ a ∈ sv.answer, Honest sv.log p.request a

structure ServedBy (served : List Service) (polls : List Poll) : Prop where
  grows : served.Pairwise fun sv sv' => sv.log <+: sv'.log
  serves : List.Forall₂ Serves served polls

/-- Every message is reported once: no message is printed twice, and after a report the loop goes on
with the state that came with it, which covers the messages reported. -/
structure ReportsOnce (served : List Service) (w : Watch) : Prop where
  once : (printedEntries w.lines).Nodup
  threaded : ∀ x ∈ served.zip w.polls, ∀ d ∈ x.1.report, x.2.next = d.state.toState
  covered : ∀ x ∈ served.zip w.polls, ∀ d ∈ x.1.report, ∀ m ∈ d.newMessages,
    m.pts ≤ x.2.next.pts

theorem ServedBy.serves_of_mem {served : List Service} {polls : List Poll}
    (h : ServedBy served polls) {x : Service × Poll} (hx : x ∈ served.zip polls) :
    Serves x.1 x.2 :=
  (forall₂_iff_zip.mp h.serves).2 hx

theorem ServedBy.exists_mem_zip {served : List Service} {polls : List Poll}
    (h : ServedBy served polls) {p : Poll} (hp : p ∈ polls) :
    ∃ x ∈ served.zip polls, x.2 = p := by
  have hlen : polls.length ≤ served.length := h.serves.length_eq.ge
  rw [← map_snd_zip hlen] at hp
  exact mem_map.mp hp

/-! ## What a served poll does -/

section Poll

variable {env : WatchEnv} {sv : Service} {p : Poll} {a : Answer} {d : Difference}

theorem Serves.diff_eq (h : Serves sv p) (ha : sv.answer = some a) :
    p.diff env = parseDifference env.walkers p.request a.bytes := by
  rw [Poll.diff, h.reply_eq, ha]
  rfl

theorem Serves.next_eq (h : Serves sv p) (hp : p.Sound env) (ha : sv.answer = some a) :
    p.next = a.stateAfter p.request := by
  rw [hp.next_eq, h.diff_eq ha, nextState_parseDifference]
  rfl

theorem Service.exists_answer (hd : sv.report = some d) :
    ∃ a, sv.answer = some a ∧ a.report = some d :=
  Option.bind_eq_some_iff.mp hd

/-- **After a report the loop has the state it had before.** -/
theorem Serves.next_of_report (h : Serves sv p) (hp : p.Sound env) (hd : sv.report = some d) :
    p.next = p.request := by
  obtain ⟨a, ha, had⟩ := sv.exists_answer hd
  rw [h.next_eq hp ha, a.stateAfter_of_report had]

theorem Serves.printedEntries_eq_nil (h : Serves sv p) (hp : p.Sound env)
    (hst : ∀ d ∈ sv.report, d.state.toState = p.request) : printedEntries p.lines = [] := by
  have hprinted := hp.printed
  rcases ha : sv.answer with _ | a
  · have hdiff : p.diff env = none := by
      rw [Poll.diff, h.reply_eq, ha]
      rfl
    rw [hdiff] at hprinted
    exact sublist_nil.mp hprinted
  rcases had : a.report with _ | d
  · obtain ⟨diff, hparse, hnew, -⟩ :=
      parseDifference_of_report_eq_none (w := env.walkers) p.request had
    rw [h.diff_eq ha, hparse, Option.map_some, hnew] at hprinted
    exact sublist_nil.mp hprinted
  · have hd : sv.report = some d := Option.bind_eq_some_iff.mpr ⟨a, ha, had⟩
    have hpts : d.state.pts = p.request.pts := congrArg UpdatesState.pts (hst d hd)
    have hnil := (h.honest a ha).newMessages_eq_nil had hpts
    have hnone : List.Forall₂ (Understood env.walkers) d.newMessages [] := by
      rw [hnil]
      exact .nil
    have hparse := parseDifference_newMessages p.request had hnone (by rw [hnil]; decide)
    rw [h.diff_eq ha, hparse, Option.map_some] at hprinted
    exact sublist_nil.mp hprinted

end Poll

/-- **When `watch` reports every message once.**  In every run of `watch` against an honest server:
no message is printed twice and every report leaves the loop with the state that came with it,
which covers the messages of the report, if and only if every `updates.difference` and
`updates.differenceSlice` carried the state that it was asked for. -/
theorem watch_reports_once_iff (env : WatchEnv) {n : ℕ} {io : WatchIo} {w : Watch}
    (hrun : cmdWatch env n io = some w) {served : List Service}
    (hserved : ServedBy served w.polls) :
    ReportsOnce served w ↔
      ∀ x ∈ served.zip w.polls, ∀ d ∈ x.1.report, d.state.toState = x.2.request := by
  obtain ⟨st₀, htraced⟩ := cmdWatch_traced env hrun
  have hsound (x : Service × Poll) (hx : x ∈ served.zip w.polls) : x.2.Sound env :=
    htraced.sound x.2 (of_mem_zip hx).2
  constructor
  · intro h x hx d hd
    rw [← h.threaded x hx d hd, (hserved.serves_of_mem hx).next_of_report (hsound x hx) hd]
  · intro hst
    have hthreaded : ∀ x ∈ served.zip w.polls, ∀ d ∈ x.1.report, x.2.next = d.state.toState := by
      intro x hx d hd
      rw [hst x hx d hd, (hserved.serves_of_mem hx).next_of_report (hsound x hx) hd]
    refine ⟨?_, hthreaded, ?_⟩
    · -- nothing is printed at all
      have hnone : printedEntries w.lines = [] := by
        rw [htraced.lines_eq, printedEntries, filterMap_flatMap, flatMap_eq_nil_iff]
        intro p hp
        obtain ⟨x, hx, rfl⟩ := hserved.exists_mem_zip hp
        exact (hserved.serves_of_mem hx).printedEntries_eq_nil (hsound x hx) (hst x hx)
      rw [hnone]
      exact nodup_nil
    · intro x hx d hd m hm
      obtain ⟨a, ha, had⟩ := x.1.exists_answer hd
      rw [hthreaded x hx d hd]
      exact ((hserved.serves_of_mem hx).honest a ha).covers had m hm

/-! ### Two runs -/

/-- Skippers that know nothing; a message without flags needs none. -/
def noWalkers : MessageWalkers where
  messageFwdHeader _ := none
  messageReplyHeader _ := none
  messageMediaEx _ := (.zero, none)
  replyMarkup _ := none
  messageEntitiesVector _ := none
  messageReplies _ := none
  messageReactions _ := none
  restrictionReasonVector _ := none
  factcheck _ := none
  parseService _ := Prog.fail

def demoWatchEnv : WatchEnv where
  api := ⟨fun _ _ => none, apiConfigInit⟩
  walkers := noWalkers
  args := ⟨true, false, []⟩

/-- The state that `watch` finds in its file. -/
def demoState : UpdatesState :=
  ⟨4, 0, 100, 1, 0⟩

/-- Two polls, to which the server gives the same answer, each in an `rpc_result` for the request
that was sent. -/
def demoWatchIo (a : Answer) : WatchIo where
  session := staleSession
  net := {
    clock := [(5, 8), (6, 8)]
    sends := [true, true]
    frames := [some (plainFrame staleSession (rpcResultFrame (msgIdAfter 4 5 8) a.bytes)),
      some (plainFrame staleSession (rpcResultFrame (msgIdAfter 4 6 8) a.bytes))]
    sent := [] }
  cacheDir := some (ascii "/c")
  files := (updatesStateSave .working (some (ascii "/c")) demoState .empty).2
  saves := []
  stdout := []
  interrupts := []

theorem load_demoWatchIo (a : Answer) :
    updatesStateLoad (demoWatchIo a).cacheDir (demoWatchIo a).files = .ok demoState :=
  updatesStateLoad_save (fst_updatesStateSave_working rfl _)

def demoWatch (a : Answer) : Watch :=
  watchRun demoWatchEnv 2 ((demoWatchIo a).start demoState)

theorem cmdWatch_of_load {env : WatchEnv} {n : ℕ} {io : WatchIo} {st : UpdatesState}
    (h : updatesStateLoad io.cacheDir io.files = .ok st) :
    cmdWatch env n io = some (watchRun env n (io.start st)) := by
  rw [cmdWatch, h]

/-- A difference with these messages, and with `pts` in its state. -/
def demoDifference (newMessages : List Message) (pts : Int32) : Difference :=
  ⟨newMessages, [], [], [], [], ⟨pts, 0, 100, 1, 0⟩⟩

/-- The text "hi" from user 42, stored at `pts` 5. -/
def demoMessage : Message where
  pts := 5
  body := tlWriteString (tlWriteInt32 (tlWriteInt64 (tlWriteUint32 (tlWriteInt32 (tlWriteUint32
    (tlWriteUint32 (tlWriteUint32 [] tlMessage) 0) 0) 7) tlPeerUser) 42) 100) (ascii "hi")

def demoEntry : HistoryEntry :=
  { HistoryEntry.zero with id := 7, peerId := 42, date := 100, text := ascii "hi" }

def demoServed (log : List Message) (a : Answer) : List Service :=
  [⟨log, some a⟩, ⟨log, some a⟩]

/-- Two polls that report nothing new and carry the state that they were asked for. -/
theorem watch_reports_once_quiet :
    let a := Answer.difference (demoDifference [] 4)
    cmdWatch demoWatchEnv 2 (demoWatchIo a) = some (demoWatch a) ∧
      (demoWatch a).polls.length = 2 ∧ ReportsOnce (demoServed [] a) (demoWatch a) := by
  intro a
  have hrun : cmdWatch demoWatchEnv 2 (demoWatchIo a) = some (demoWatch a) :=
    cmdWatch_of_load (load_demoWatchIo a)
  have hpolls : (demoWatch a).polls =
      [⟨demoState, some a.bytes, demoState, []⟩, ⟨demoState, some a.bytes, demoState, []⟩] := by
    decide +kernel
  have hhonest : Honest [] demoState a := ⟨rfl, fun m hm => absurd hm not_mem_nil⟩
  have hserves : Serves ⟨[], some a⟩ ⟨demoState, some a.bytes, demoState, []⟩ :=
    ⟨rfl, fun b hb => Option.some_inj.mp hb ▸ hhonest⟩
  have hserved : ServedBy (demoServed [] a) (demoWatch a).polls := by
    rw [hpolls]
    exact ⟨by simp [demoServed], .cons hserves (.cons hserves .nil)⟩
  refine ⟨hrun, by rw [hpolls]; rfl, (watch_reports_once_iff demoWatchEnv hrun hserved).mpr ?_⟩
  rw [hpolls]
  decide +kernel

/-- **The message of the first poll is printed again after the second.** -/
theorem watch_prints_message_twice :
    let a := Answer.difference (demoDifference [demoMessage] 5)
    cmdWatch demoWatchEnv 2 (demoWatchIo a) = some (demoWatch a) ∧
      ServedBy (demoServed [demoMessage] a) (demoWatch a).polls ∧
      printedEntries (demoWatch a).lines = [demoEntry, demoEntry] ∧
      ¬ ReportsOnce (demoServed [demoMessage] a) (demoWatch a) := by
  intro a
  have hprinted : printedEntries (demoWatch a).lines = [demoEntry, demoEntry] := by
    decide +kernel
  have hpolls : (demoWatch a).polls =
      [⟨demoState, some a.bytes, demoState, [.message demoEntry]⟩,
        ⟨demoState, some a.bytes, demoState, [.message demoEntry]⟩] := by
    decide +kernel
  have hhonest : Honest [demoMessage] demoState a := ⟨by decide, by decide⟩
  have hserves : Serves ⟨[demoMessage], some a⟩
      ⟨demoState, some a.bytes, demoState, [.message demoEntry]⟩ :=
    ⟨rfl, fun b hb => Option.some_inj.mp hb ▸ hhonest⟩
  refine ⟨cmdWatch_of_load (load_demoWatchIo a), ?_, hprinted, fun h => ?_⟩
  · rw [hpolls]
    exact ⟨by simp [demoServed], .cons hserves (.cons hserves .nil)⟩
  · have honce := h.once
    rw [hprinted] at honce
    exact absurd honce (by decide)

/-! ## One process after another -/

/-- Processes that run `watch` one after another on the same files, each for so many turns: the
polls of all of them, and the files they leave. -/
def watchProcesses (cacheDir : Option Bytes) :
    List (WatchEnv × ℕ × WatchIo) → InodeFs Bytes → List Poll × InodeFs Bytes
  | [], files => ([], files)
  | (env, n, io) :: ps, files =>
    match cmdWatch env n { io with cacheDir, files } with
    | none => watchProcesses cacheDir ps files
    | some w =>
      let rest := watchProcesses cacheDir ps w.files
      (w.polls ++ rest.1, rest.2)

/-- The saves to come work, and the file has the state of the loop. -/
structure Watch.Saved (cacheDir : Option Bytes) (w : Watch) : Prop where
  dir : w.cacheDir = cacheDir
  saves : ∀ io ∈ w.saves, io = .working
  load : updatesStateLoad w.cacheDir w.files = .ok w.state

theorem WatchIo.load_save (io : WatchIo) (hsaves : ∀ s ∈ io.saves, s = .working)
    (hdir : (buildStatePath io.cacheDir).isSome) (st : UpdatesState) :
    updatesStateLoad (io.save st).cacheDir (io.save st).files = .ok st := by
  have hnext : io.saves.headD .working = .working := by
    rcases hl : io.saves with _ | ⟨s, l⟩
    · rfl
    · exact hsaves s (hl ▸ mem_cons_self)
  rw [WatchIo.save, hnext]
  exact updatesStateLoad_save (fst_updatesStateSave_working hdir io.files)

section Saved

variable {cacheDir : Option Bytes} {w : Watch}

theorem Watch.Saved.watchStep (h : w.Saved cacheDir) (env : WatchEnv) :
    (Main.watchStep env w).Saved cacheDir := by
  rw [Main.watchStep]
  split
  · exact h
  · generalize domainUpdatesDifference env.api env.walkers w.state w.session w.net = x
    obtain ⟨diff, s', net'⟩ := x
    cases diff with
    | none => exact ⟨h.dir, h.saves, h.load⟩
    | some diff =>
      exact ⟨h.dir, fun io hio => h.saves io (mem_of_mem_tail hio),
        w.toWatchIo.load_save h.saves (isSome_of_updatesStateLoad h.load) _⟩

theorem Watch.Saved.watchRun (h : w.Saved cacheDir) (env : WatchEnv) (n : ℕ) :
    (Main.watchRun env n w).Saved cacheDir := by
  induction n generalizing w with
  | zero => exact h
  | succ n ih => exact ih (h.watchStep env)

end Saved

theorem Chained.append {st st' st'' : UpdatesState} {ps qs : List Poll} (h : Chained st ps st')
    (h' : Chained st' qs st'') : Chained st (ps ++ qs) st'' := by
  induction ps generalizing st with
  | nil =>
    cases h
    exact h'
  | cons p ps ih => exact ⟨h.1, ih h.2⟩

/-- **A restart goes on where the last process stopped.**  Where the saves work, each poll asks from
the state that the poll before it ended with, however often `watch` is started again, and the file
has the state of the last one. -/
theorem watchProcesses_chained {ps : List (WatchEnv × ℕ × WatchIo)}
    (hsaves : ∀ p ∈ ps, ∀ io ∈ p.2.2.saves, io = .working) {cacheDir : Option Bytes}
    {files : InodeFs Bytes} {st : UpdatesState} (hload : updatesStateLoad cacheDir files = .ok st) :
    ∃ st', updatesStateLoad cacheDir (watchProcesses cacheDir ps files).2 = .ok st' ∧
      Chained st (watchProcesses cacheDir ps files).1 st' := by
  induction ps generalizing files st with
  | nil => exact ⟨st, hload, rfl⟩
  | cons p ps ih =>
    obtain ⟨env, n, io⟩ := p
    rw [forall_mem_cons] at hsaves
    let start : Watch := WatchIo.start { io with cacheDir, files } st
    have hsaved : (watchRun env n start).Saved cacheDir :=
      (show start.Saved cacheDir from ⟨rfl, hsaves.1, hload⟩).watchRun env n
    have htraced : start.Traced env st := ⟨fun _ hp => absurd hp not_mem_nil, rfl, rfl⟩
    have hcmd : cmdWatch env n { io with cacheDir, files } = some (watchRun env n start) :=
      cmdWatch_of_load hload
    obtain ⟨st', hfile, hrest⟩ := ih hsaves.2 (hsaved.dir ▸ hsaved.load)
    rw [watchProcesses, hcmd]
    exact ⟨st', hfile, (htraced.watchRun env n).chained.append hrest⟩

/-- Two processes, with one poll each. -/
def demoProcesses : List (WatchEnv × ℕ × WatchIo) :=
  replicate 2 (demoWatchEnv, 1, demoWatchIo (.difference (demoDifference [demoMessage] 5)))

def demoRuns : List Poll × InodeFs Bytes :=
  watchProcesses (some (ascii "/c")) demoProcesses
    (demoWatchIo (.difference (demoDifference [demoMessage] 5))).files

theorem watchProcesses_chained_two :
    demoRuns.1.length = 2 ∧ ∃ st', updatesStateLoad (some (ascii "/c")) demoRuns.2 = .ok st' ∧
      Chained demoState demoRuns.1 st' :=
  ⟨by decide +kernel, watchProcesses_chained (by decide +kernel) (load_demoWatchIo _)⟩

end TgCli.Main
