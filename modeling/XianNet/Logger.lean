import XianNet.Interleaving.History
import XianNet.Interleaving.Weight
import XianNet.OpenTime

/-!
# The log

Every thread logs through one `Logger`, which writes a line to `cout` and then
to its file stream under its spin lock. The constructor of `XianNet` logs before
it initializes the logger, and these lines are on `cout` only. From then on both
get the same lines in the same order, and of every thread one line for each call
that passes the level, in the order of its calls (`log_lines`). `result.log` has
what the stream has passed on: nothing flushes or closes it while the server
runs.
-/

namespace XianNet.Log

open Interleaving

-- ---------------------------------------------------------------------------
-- Lines
-- ---------------------------------------------------------------------------

/-- `Logger::LEVEL` -/
inductive Level
  | debug
  | info
  | warning
  | error
  deriving DecidableEq, Repr

def Level.rank : Level → Nat
  | .debug => 0
  | .info => 1
  | .warning => 2
  | .error => 3

/-- The name that `DECLARE_LOG` makes of the level. -/
def Level.name : Level → String
  | .debug => "DEBUG"
  | .info => "INFO"
  | .warning => "WARNING"
  | .error => "ERROR"

/-- `std::experimental::source_location` -/
structure SourceLocation where
  fileName : String
  line : Nat
  functionName : String
  deriving DecidableEq, Repr

/-- `%0*d` -/
def padded (width n : Nat) : String :=
  "".pushn '0' (width - (toString n).length) ++ toString n

/-- `OpenTime::toString` -/
def timeString (o : OpenTime) : String :=
  padded 4 o.year ++ "-" ++ padded 2 o.month ++ "-" ++ padded 2 o.day ++ " " ++
    padded 2 o.hour ++ ":" ++ padded 2 o.minute ++ ":" ++ padded 2 o.second

/-- Two clocks are read: `time` gives the seconds, `ms` the milliseconds. -/
def getCurrentFormattedTimeString (time ms : Nat) : String :=
  timeString (OpenTime.now time) ++ "." ++ toString (ms % 1000) ++ " "

/-- `substr(find('/') + 1)`, which is all of it if there is no slash. -/
def afterSlash (s : String) : String :=
  match s.toList.dropWhile (· ≠ '/') with
  | [] => s
  | _ :: rest => String.ofList rest

/-- A call of `Log` or `JsLog`. -/
inductive Call
  | log (actLevel : Level) (message : String) (location : SourceLocation)
  | jsLog (actLevel : Level) (message fileName : String)
  deriving DecidableEq, Repr

def Call.actLevel : Call → Level
  | .log l _ _ | .jsLog l _ _ => l

def Call.content (time ms : Nat) : Call → String
  | .log l message location =>
    getCurrentFormattedTimeString time ms ++ (afterSlash location.fileName ++ ":" ++
      toString location.line ++ " " ++ location.functionName) ++ " [" ++ l.name ++ "] - " ++
      message ++ "\n"
  | .jsLog l message fileName =>
    getCurrentFormattedTimeString time ms ++ "[SCRIPT] " ++ fileName ++ " [" ++ l.name ++ "] - " ++
      message ++ "\n"

-- ---------------------------------------------------------------------------
-- The logger and its threads
-- ---------------------------------------------------------------------------

/-- An `ofstream`, and what it has added to its file. -/
structure OutputFileStream where
  buffer : List UInt8 := []
  file : List UInt8 := []
  deriving DecidableEq, Repr

/-- `<<` puts the content into the buffer, and the buffer passes on as much as
it likes. -/
def OutputFileStream.put (o : OutputFileStream) (content : String) (n : Nat) : OutputFileStream :=
  let buffer := o.buffer ++ content.toUTF8.toList
  { buffer := buffer.drop n, file := o.file ++ buffer.take n }

/-- `cout` is what each `<<` wrote. The one logger is a static variable, so
`level_` is zero before `Initialize`. -/
structure Logger where
  level : Level := .debug
  isWriteToLogFile : Bool := false
  locked : Bool := false
  cout : List String := []
  outputFileStream : OutputFileStream := {}
  deriving DecidableEq, Repr

/-- The logger, and whether the constructor of `XianNet` has started the threads. -/
structure Shared where
  logger : Logger := {}
  started : Bool := false
  deriving DecidableEq, Repr

/-- What the constructor of `XianNet` logs before `Initialize`, the level that it
passes, and the greeting of the logger. -/
structure Setup where
  early : List Call
  level : Level
  greeting : String
  deriving DecidableEq, Repr

def setup (threadSize : Int32) (greeting fileName functionName : String) : Setup where
  early := [.log .info "XianNet 开始初始化" ⟨fileName, 25, functionName⟩,
    .log .info ("thread_size: " ++ toString threadSize.toInt) ⟨fileName, 26, functionName⟩]
  level := .debug
  greeting := greeting

/-- The lines of `Output`. -/
inductive OutputPc
  | lock
  | cout
  | file
  | unlock
  deriving DecidableEq, Repr

/-- The constructor of `XianNet`: its calls before `Initialize`, then both
functions of this name. -/
inductive MainPc
  | early (calls : List Call)
  | setLevel
  | greet
  deriving DecidableEq, Repr

inductive Frame
  | main (pc : MainPc)
  /-- A thread that has not been started. -/
  | thread
  | caller
  | log (call : Call)
  | output (content : String) (pc : OutputPc)
  deriving DecidableEq, Repr

/-- A thread that is not logging calls the logger, or prints by itself; one of
them starts the others. The buffer of the file passes on so many bytes. -/
inductive Choice
  | go
  | call (call : Call)
  | print (text : String)
  | start
  | clocks (time ms : Nat)
  | flush (n : Nat)
  deriving DecidableEq, Repr

inductive Op
  | silent
  | openFile
  | setLevel (level : Level)
  | start
  | lock
  | unlock
  | cout (content : String)
  | file (content : String) (n : Nat)
  | print (text : String)
  deriving DecidableEq, Repr

def Logger.apply (σ : Logger) : Op → Logger
  | .silent | .start => σ
  | .openFile => { σ with isWriteToLogFile := true }
  | .setLevel level => { σ with level }
  | .lock => { σ with locked := true }
  | .unlock => { σ with locked := false }
  | .cout content | .print content => { σ with cout := σ.cout ++ [content] }
  | .file content n => { σ with outputFileStream := σ.outputFileStream.put content n }

def Shared.apply (σ : Shared) (op : Op) : Shared :=
  { logger := σ.logger.apply op, started := σ.started || op = .start }

def OutputPc.step (σ : Logger) (content : String) (pc : OutputPc) (c : Choice) :
    Option (Op × List Frame) :=
  match pc, c with
  | .lock, .go => if σ.locked then none else some (.lock, [.output content .cout])
  | .cout, .go => some (.cout content, [.output content .file])
  | .file, .flush n =>
    some (if σ.isWriteToLogFile then .file content n else .silent, [.output content .unlock])
  | .unlock, .go => some (.unlock, [])
  | _, _ => none

def MainPc.step (p : Setup) : MainPc → Op × List Frame
  | .early (call :: calls) => (.silent, [.log call, .main (.early calls)])
  | .early [] => (.openFile, [.main .setLevel])
  | .setLevel => (.setLevel p.level, [.main .greet])
  | .greet => (.print (p.greeting ++ "\n"), [.caller])

def Frame.step (p : Setup) (σ : Shared) (f : Frame) (c : Choice) : Option (Op × List Frame) :=
  match f, c with
  | .main pc, .go => some (pc.step p)
  | .thread, .go => if σ.started then some (.silent, [.caller]) else none
  | .caller, .start => some (.start, [.caller])
  | .caller, .call call => some (.silent, [.log call, .caller])
  | .caller, .print text => some (.print text, [.caller])
  | .log call, .clocks time ms =>
    some (.silent, if σ.logger.level.rank ≤ call.actLevel.rank then
      [.output (call.content time ms) .lock] else [])
  | .output content pc, c => pc.step σ.logger content c
  | _, _ => none

/-- The threads that use the logger. -/
def machine (p : Setup) : Machine Shared Frame Choice Op := ⟨Frame.step p, Shared.apply⟩

abbrev State := Interleaving.State Shared Frame
abbrev Label := Interleaving.Label Frame Choice Op

/-- The main thread, and `k` threads that it will start. -/
def initial (p : Setup) (k : Nat) : State :=
  ⟨{}, [.main (.early p.early)] :: List.replicate k [.thread]⟩

-- ---------------------------------------------------------------------------
-- What a step does
-- ---------------------------------------------------------------------------

variable {p : Setup} {σ : Shared} {C : State → Label → Prop} {s : State} {tr : List Label}

inductive FrameStep (p : Setup) (σ : Shared) : Frame → Choice → Op → List Frame → Prop
  | early : FrameStep p σ (.main (.early (call :: calls))) c .silent
      [.log call, .main (.early calls)]
  | openFile : FrameStep p σ (.main (.early [])) c .openFile [.main .setLevel]
  | setLevel : FrameStep p σ (.main .setLevel) c (.setLevel p.level) [.main .greet]
  | greet : FrameStep p σ (.main .greet) c (.print (p.greeting ++ "\n")) [.caller]
  | thread : σ.started → FrameStep p σ .thread c .silent [.caller]
  | start : FrameStep p σ .caller .start .start [.caller]
  | call : FrameStep p σ .caller (.call call) .silent [.log call, .caller]
  | print : FrameStep p σ .caller (.print text) (.print text) [.caller]
  | format : σ.logger.level.rank ≤ call.actLevel.rank →
      FrameStep p σ (.log call) c .silent [.output (call.content time ms) .lock]
  | drop : ¬ σ.logger.level.rank ≤ call.actLevel.rank → FrameStep p σ (.log call) c .silent []
  | lock : σ.logger.locked = false →
      FrameStep p σ (.output content .lock) c .lock [.output content .cout]
  | cout : FrameStep p σ (.output content .cout) c (.cout content) [.output content .file]
  | file : σ.logger.isWriteToLogFile →
      FrameStep p σ (.output content .file) c (.file content n) [.output content .unlock]
  | noFile : σ.logger.isWriteToLogFile = false →
      FrameStep p σ (.output content .file) c .silent [.output content .unlock]
  | unlock : FrameStep p σ (.output content .unlock) c .unlock []

theorem OutputPc.step_cases (h : OutputPc.step σ.logger content pc c = some (op, fs)) :
    FrameStep p σ (.output content pc) c op fs := by
  unfold OutputPc.step at h
  split at h
  · split at h
    · cases h
    · rename_i hl; cases h; exact .lock (Bool.eq_false_iff.mpr hl)
  · cases h; exact .cout
  · split at h
    · rename_i hw; cases h; exact .file hw
    · rename_i hw; cases h; exact .noFile (Bool.eq_false_iff.mpr hw)
  · cases h; exact .unlock
  · cases h

theorem Frame.step_cases (h : Frame.step p σ f c = some (op, fs)) : FrameStep p σ f c op fs := by
  unfold Frame.step at h
  split at h
  · rename_i pc
    unfold MainPc.step at h
    split at h
    · cases h; exact .early
    · cases h; exact .openFile
    · cases h; exact .setLevel
    · cases h; exact .greet
  · split at h
    · rename_i hs; cases h; exact .thread hs
    · cases h
  · cases h; exact .start
  · cases h; exact .call
  · cases h; exact .print
  · split at h
    · rename_i hl; cases h; exact .format hl
    · rename_i hl; cases h; exact .drop hl
  · exact OutputPc.step_cases h
  · cases h

theorem isWriteToLogFile_apply (σ : Logger) (op : Op) :
    (σ.apply op).isWriteToLogFile = (σ.isWriteToLogFile || op = .openFile) := by
  cases op <;> simp [Logger.apply]

-- ---------------------------------------------------------------------------
-- Lines in a run
-- ---------------------------------------------------------------------------

def Op.coutLine : Op → List String
  | .cout content => [content]
  | _ => []

def Op.fileLine : Op → List String
  | .file content _ => [content]
  | _ => []

/-- The lines that the logger wrote to `cout`. -/
def printed (tr : List Label) : List String := tr.flatMap (·.op.coutLine)

/-- The lines that it put into the file stream. -/
def streamed (tr : List Label) : List String := tr.flatMap (·.op.fileLine)

/-- The calls of the thread that pass the level. -/
def Label.asked (level : Level) (t : Nat) (l : Label) : List Call :=
  match l.frame, l.choice with
  | .caller, .call call =>
    if l.thread = t ∧ level.rank ≤ call.actLevel.rank then [call] else []
  | _, _ => []

/-- The lines that the thread put into the file stream. -/
def Label.filed (t : Nat) (l : Label) : List String :=
  if l.thread = t then l.op.fileLine else []

/-- The line of a call, with what the clocks said. -/
def Renders (call : Call) (content : String) : Prop := ∃ time ms, content = call.content time ms

theorem printed_append {tr' : List Label} : printed (tr ++ tr') = printed tr ++ printed tr' :=
  List.flatMap_append

theorem streamed_append {tr' : List Label} : streamed (tr ++ tr') = streamed tr ++ streamed tr' :=
  List.flatMap_append

theorem printed_snoc {l : Label} : printed (tr ++ [l]) = printed tr ++ l.op.coutLine := by
  rw [printed_append]
  exact congrArg _ (List.flatMap_singleton ..)

theorem streamed_snoc {l : Label} : streamed (tr ++ [l]) = streamed tr ++ l.op.fileLine := by
  rw [streamed_append]
  exact congrArg _ (List.flatMap_singleton ..)

theorem filed_of_streamed (h : streamed tr = []) (t : Nat) : tr.flatMap (Label.filed t) = [] := by
  refine List.flatMap_eq_nil_iff.mpr fun l hl => ?_
  rw [Label.filed, List.flatMap_eq_nil_iff.mp h l hl, ite_self]

theorem asked_of_ne {l : Label} (h : l.frame ≠ .caller) : Label.asked level t l = [] := by
  unfold Label.asked
  split
  · rename_i heq _; exact absurd heq h
  · rfl

-- ---------------------------------------------------------------------------
-- Before `Initialize`
-- ---------------------------------------------------------------------------

/-- Where the main thread is with the calls before `Initialize`, whether it has
the lock, and the lines that it has written to `cout`. -/
inductive Prelude (early : List Call) (lines : List String) : Bool → List Frame → Prop
  | next : early = done ++ calls → List.Forall₂ Renders done lines →
      Prelude early lines false [.main (.early calls)]
  | log : early = done ++ call :: calls → List.Forall₂ Renders done lines →
      Prelude early lines false [.log call, .main (.early calls)]
  | lock : early = done ++ call :: calls → List.Forall₂ Renders done lines →
      Renders call content → Prelude early lines false [.output content .lock, .main (.early calls)]
  | cout : early = done ++ call :: calls → List.Forall₂ Renders done lines →
      Renders call content → Prelude early lines true [.output content .cout, .main (.early calls)]
  | written : early = done ++ calls → List.Forall₂ Renders done lines → pc = .file ∨ pc = .unlock →
      Prelude early lines true [.output content pc, .main (.early calls)]

/-- What the main thread does before `Initialize`. -/
def Op.isEarly : Op → Bool
  | .silent | .lock | .unlock | .cout _ => true
  | _ => false

theorem Prelude.step (hi : Prelude early lines σ.logger.locked (f :: rest))
    (h : FrameStep p σ f c op fs) (hlevel : σ.logger.level = .debug)
    (hclosed : σ.logger.isWriteToLogFile = false) :
    (op.isEarly ∧ Prelude early (lines ++ op.coutLine) (σ.apply op).logger.locked (fs ++ rest)) ∨
      (op = .openFile ∧ σ.logger.locked = false ∧ fs ++ rest = [.main .setLevel] ∧
        List.Forall₂ Renders early lines) := by
  have hpass : ∀ call : Call, σ.logger.level.rank ≤ call.actLevel.rank := fun call => by
    rw [hlevel]
    exact Nat.zero_le _
  generalize hlocked : σ.logger.locked = locked at hi
  cases hi with
  | next hcalls hdone =>
    cases h with
    | early =>
      refine .inl ⟨rfl, ?_⟩
      simp only [Op.coutLine, List.append_nil]
      exact hlocked ▸ .log hcalls hdone
    | openFile =>
      rw [List.append_nil] at hcalls
      exact .inr ⟨rfl, rfl, rfl, hcalls ▸ hdone⟩
  | log hcalls hdone =>
    cases h with
    | format =>
      refine .inl ⟨rfl, ?_⟩
      simp only [Op.coutLine, List.append_nil]
      exact hlocked ▸ .lock hcalls hdone ⟨_, _, rfl⟩
    | drop hl => exact absurd (hpass _) hl
  | lock hcalls hdone hrenders =>
    cases h with
    | lock =>
      refine .inl ⟨rfl, ?_⟩
      simp only [Op.coutLine, List.append_nil]
      exact .cout hcalls hdone hrenders
  | cout hcalls hdone hrenders =>
    cases h with
    | cout =>
      refine .inl ⟨rfl, ?_⟩
      rw [List.append_cons] at hcalls
      exact hlocked ▸ .written hcalls (List.rel_append hdone (.cons hrenders .nil)) (.inl rfl)
  | written hcalls hdone hpc =>
    cases h with
    | noFile =>
      refine .inl ⟨rfl, ?_⟩
      simp only [Op.coutLine, List.append_nil]
      exact hlocked ▸ .written hcalls hdone (.inr rfl)
    | unlock =>
      refine .inl ⟨rfl, ?_⟩
      simp only [Op.coutLine, List.append_nil]
      exact .next hcalls hdone
    | file hw => rw [hclosed] at hw; cases hw
    | lock | cout => rcases hpc with hpc | hpc <;> cases hpc

/-- The main thread is alone, and has not come to `Initialize`. -/
structure Starting (p : Setup) (k : Nat) (tr : List Label) (s : State) : Prop where
  main : ∃ stack, s.threads = stack :: List.replicate k [.thread] ∧
    Prelude p.early (printed tr) s.shared.logger.locked stack
  started : s.shared.started = false
  level : s.shared.logger.level = .debug
  closed : s.shared.logger.isWriteToLogFile = false
  stream : s.shared.logger.outputFileStream = {}
  streamed : streamed tr = []
  asked : ∀ t, tr.flatMap (Label.asked p.level t) = []

/-- `Initialize` has just opened the file, after the trace. -/
structure Opened (p : Setup) (k : Nat) (tr : List Label) (s : State) : Prop where
  threads : s.threads = [.main .setLevel] :: List.replicate k [.thread]
  started : s.shared.started = false
  locked : s.shared.logger.locked = false
  write : s.shared.logger.isWriteToLogFile = true
  stream : s.shared.logger.outputFileStream = {}
  printed : List.Forall₂ Renders p.early (printed tr)
  streamed : Log.streamed tr = []
  asked : ∀ t, tr.flatMap (Label.asked p.level t) = []

theorem started_of_thread (h : FrameStep p σ .thread c op fs) : σ.started := by
  cases h with
  | thread hs => exact hs

theorem Prelude.ne_caller (h : Prelude early lines locked (f :: rest)) : f ≠ .caller := by
  cases h <;> nofun

theorem Starting.initial : Starting p k [] (initial p k) :=
  ⟨⟨_, rfl, .next rfl .nil⟩, rfl, rfl, rfl, rfl, rfl, fun _ => rfl⟩

theorem early_apply (h : op.isEarly) : (σ.apply op).started = σ.started ∧
    (σ.apply op).logger.level = σ.logger.level ∧
    (σ.apply op).logger.isWriteToLogFile = σ.logger.isWriteToLogFile ∧
    (σ.apply op).logger.outputFileStream = σ.logger.outputFileStream ∧ op.fileLine = [] := by
  cases op <;> cases h <;> simp [Shared.apply, Logger.apply, Op.fileLine]

theorem Starting.step {s' : State} (hi : Starting p k tr s) (hs : (machine p).Step s l s') :
    Starting p k (tr ++ [l]) s' ∨ Opened p k (tr ++ [l]) s' := by
  obtain ⟨⟨stack, hthreads, hprelude⟩, hstarted, hlevel, hclosed, hstream, hstreamed, hasked⟩ := hi
  obtain ⟨rest, fs, ht, hm, rfl⟩ := Machine.Step.eq hs
  have hstep := Frame.step_cases hm
  rw [hthreads] at ht
  cases ht0 : l.thread with
  | succ t =>
    -- The other threads wait to be started.
    rw [ht0, List.getElem?_cons_succ] at ht
    have hstack := List.eq_of_mem_replicate (List.mem_of_getElem? ht)
    obtain ⟨hl, -⟩ := List.cons.inj hstack
    rw [hl] at hstep
    have hs := started_of_thread hstep
    rw [hstarted] at hs
    cases hs
  | zero =>
    rw [ht0, List.getElem?_cons_zero, Option.some_inj] at ht
    subst ht
    have hasked' : ∀ t, (tr ++ [l]).flatMap (Label.asked p.level t) = [] := fun t => by
      rw [List.flatMap_append, hasked t, List.flatMap_singleton, asked_of_ne hprelude.ne_caller]
      rfl
    rcases hprelude.step hstep hlevel hclosed with ⟨hearly, hnext⟩ | ⟨hop, hfree, hnext, hdone⟩
    · obtain ⟨h₁, h₂, h₃, h₄, h₅⟩ := early_apply (σ := s.shared) hearly
      refine .inl ⟨⟨_, ?_, printed_snoc ▸ hnext⟩, h₁.trans hstarted, h₂.trans hlevel,
        h₃.trans hclosed, h₄.trans hstream, ?_, hasked'⟩
      · rw [hthreads]
        rfl
      · rw [streamed_snoc, hstreamed, h₅]
        rfl
    · rw [hop, hnext]
      refine .inr ⟨by rw [hthreads]; rfl, ?_, hfree, rfl, hstream, ?_, ?_, hasked'⟩
      · simp [machine, Shared.apply, hstarted]
      · rw [printed_snoc, hop]
        exact (List.append_nil _).symm ▸ hdone
      · rw [streamed_snoc, hop, hstreamed]
        rfl

/-- A run has not come to `Initialize`, or goes on from there. -/
theorem Exec.opened (h : (machine p).Exec C (initial p k) tr s) :
    Starting p k tr s ∨ ∃ before after s₁, tr = before ++ after ∧ Opened p k before s₁ ∧
      (machine p).Exec C s₁ after s := by
  induction h with
  | refl => exact .inl .initial
  | @step tr s₁ l s₂ _ hc hs ih =>
    rcases ih with hstarting | ⟨before, after, s₀, rfl, hopened, hafter⟩
    · rcases hstarting.step hs with hstarting | hopened
      · exact .inl hstarting
      · exact .inr ⟨tr ++ [l], [], s₂, (List.append_nil _).symm, hopened, .refl _⟩
    · exact .inr ⟨before, after ++ [l], s₀, List.append_assoc .., hopened, hafter.step hc hs⟩

-- ---------------------------------------------------------------------------
-- Both outputs
-- ---------------------------------------------------------------------------

variable {s₀ : State} {before : List Label}

/-- 1 if the frame has the lock. -/
def Frame.inside : Frame → Nat
  | .output _ .lock => 0
  | .output _ _ => 1
  | _ => 0

/-- The line that is on `cout` and not yet in the file stream. -/
def Frame.ahead : Frame → Option String
  | .output content .file => some content
  | _ => none

/-- `Initialize` has set the level, or the frame knows nothing of it. -/
def Frame.settled : Frame → Bool
  | .main .setLevel | .thread => false
  | _ => true

/-- The stream got all lines but the one that a thread is just writing. -/
structure OrderOk (p : Setup) (tr : List Label) (σ : Shared) (F : Multiset Frame) : Prop where
  write : σ.logger.isWriteToLogFile = true
  settled : σ.started ∨ (∃ f ∈ F, f.settled) → σ.logger.level = p.level
  stream : σ.logger.outputFileStream.file ++ σ.logger.outputFileStream.buffer =
    (streamed tr).flatMap fun line => line.toUTF8.toList
  inside : weigh Frame.inside F = σ.logger.locked.toNat
  ahead : ∃ pending : List String, F.filterMap Frame.ahead = pending ∧
    printed tr = streamed tr ++ pending

theorem inside_of_ahead (h : Frame.ahead f ≠ none) : f.inside = 1 := by
  cases f with
  | output content pc => cases pc <;> first | rfl | exact absurd rfl h
  | _ => exact absurd rfl h

/-- Whoever is inside is alone, so no other thread is ahead. -/
theorem OrderOk.alone (hi : OrderOk p tr σ (f ::ₘ R)) (hf : f.inside = 1) :
    R.filterMap Frame.ahead = 0 := by
  have hone := hi.inside
  have hle := σ.logger.locked.toNat_le
  rw [weigh_cons, hf] at hone
  have hnone : weigh Frame.inside R = 0 := by omega
  refine Multiset.eq_zero_of_forall_notMem fun content hmem => ?_
  obtain ⟨g, hg, hahead⟩ := (Multiset.mem_filterMap _ _).mp hmem
  have hle := le_weigh (w := Frame.inside) hg
  rw [hnone, inside_of_ahead (by rw [hahead]; exact Option.some_ne_none _)] at hle
  cases hle

theorem OutputFileStream.put_bytes (o : OutputFileStream) (content : String) (n : Nat) :
    (o.put content n).file ++ (o.put content n).buffer =
      o.file ++ o.buffer ++ content.toUTF8.toList := by
  simp only [OutputFileStream.put, List.append_assoc, List.take_append_drop]

theorem stream_apply (σ : Shared) (op : Op) :
    (σ.apply op).logger.outputFileStream.file ++ (σ.apply op).logger.outputFileStream.buffer =
      σ.logger.outputFileStream.file ++ σ.logger.outputFileStream.buffer ++
        op.fileLine.flatMap fun line => line.toUTF8.toList := by
  cases op with
  | file content n =>
    exact (OutputFileStream.put_bytes ..).trans (by simp [Op.fileLine])
  | _ => exact (List.append_nil _).symm

theorem OrderOk.settled_step (hi : OrderOk p tr σ (f ::ₘ R)) (h : FrameStep p σ f c op fs)
    (hnew : (σ.apply op).started ∨ ∃ g ∈ (fs : Multiset Frame) + R, g.settled) :
    (σ.apply op).logger.level = p.level := by
  have hset : f.settled → σ.logger.level = p.level := fun hf =>
    hi.settled (.inr ⟨f, Multiset.mem_cons_self f R, hf⟩)
  cases h with
  | setLevel => rfl
  | thread hs => exact hi.settled (.inl hs)
  | _ => exact hset rfl

theorem OrderOk.inside_step (hi : OrderOk p tr σ (f ::ₘ R)) (h : FrameStep p σ f c op fs) :
    weigh Frame.inside ((fs : Multiset Frame) + R) = (σ.apply op).logger.locked.toNat := by
  have hinside := hi.inside
  have hle := σ.logger.locked.toNat_le
  rw [weigh_cons] at hinside
  rw [weigh_add]
  cases h with
  | lock hfree =>
    rw [hfree] at hinside
    simp only [weigh_coe_cons, weigh_coe_nil, Frame.inside, Shared.apply, Logger.apply,
      Bool.toNat_true, Bool.toNat_false] at hinside ⊢
    omega
  | unlock =>
    simp only [weigh_coe_nil, Frame.inside, Shared.apply, Logger.apply, Bool.toNat_false]
      at hinside ⊢
    omega
  | _ => simpa [Frame.inside, Shared.apply, Logger.apply] using hinside

theorem OrderOk.ahead_step (hi : OrderOk p tr σ (f ::ₘ R)) (h : FrameStep p σ f c op fs) :
    ∃ pending : List String, ((fs : Multiset Frame) + R).filterMap Frame.ahead = pending ∧
      printed tr ++ op.coutLine = streamed tr ++ op.fileLine ++ pending := by
  have halone := hi.alone
  obtain ⟨hwrite, -, -, -, pending, hpending, hlines⟩ := hi
  rw [Multiset.filterMap_add]
  cases h with
  | @cout content =>
    rw [Multiset.filterMap_cons_none _ _ rfl, halone rfl] at hpending
    obtain rfl : pending = [] := Multiset.coe_eq_zero pending |>.mp hpending.symm
    refine ⟨[content], ?_, ?_⟩
    · rw [halone rfl, add_zero]
      rfl
    · rw [hlines]
      simp [Op.coutLine, Op.fileLine]
  | @file content =>
    rw [Multiset.filterMap_cons_some Frame.ahead _ _ rfl, halone rfl] at hpending
    obtain rfl : pending = [content] := Multiset.coe_eq_singleton.mp hpending.symm
    refine ⟨[], ?_, ?_⟩
    · rw [halone rfl, add_zero]
      rfl
    · rw [hlines]
      simp [Op.coutLine, Op.fileLine]
  | noFile hno =>
    rw [hwrite] at hno
    cases hno
  | _ =>
    refine ⟨pending, ?_, by simpa [Op.coutLine, Op.fileLine] using hlines⟩
    rw [← hpending, Multiset.filterMap_cons_none _ _ rfl]
    exact zero_add _

theorem OrderOk.step {l : Label} (hi : OrderOk p tr σ (l.frame ::ₘ R))
    (h : Frame.step p σ l.frame l.choice = some (l.op, fs)) :
    OrderOk p (tr ++ [l]) (σ.apply l.op) ((fs : Multiset Frame) + R) := by
  have hstep := Frame.step_cases h
  refine ⟨?_, hi.settled_step hstep, ?_, hi.inside_step hstep, ?_⟩
  · rw [Shared.apply, isWriteToLogFile_apply, hi.write]
    rfl
  · rw [stream_apply, hi.stream, streamed_snoc, List.flatMap_append]
  · rw [printed_snoc, streamed_snoc]
    exact hi.ahead_step hstep

theorem Opened.frames (h : Opened p k before s₀) (hf : f ∈ s₀.frames) :
    f = .main .setLevel ∨ f = .thread := by
  obtain ⟨t, stack, ht, hf⟩ := State.mem_frames.mp hf
  rw [h.threads] at ht
  cases t with
  | zero =>
    cases ht
    exact .inl (List.mem_singleton.mp hf)
  | succ t =>
    obtain rfl := List.eq_of_mem_replicate (List.mem_of_getElem? ht)
    exact .inr (List.mem_singleton.mp hf)

theorem Exec.orderOk (h0 : Opened p k before s₀) (h : (machine p).Exec C s₀ tr s) :
    OrderOk p tr s.shared s.frames := by
  refine h.invariant (I := OrderOk p) ⟨h0.write, ?_, ?_, ?_, [], ?_, rfl⟩ ?_
  · rintro (hs | ⟨f, hf, hset⟩)
    · rw [h0.started] at hs; cases hs
    · rcases h0.frames hf with rfl | rfl <;> cases hset
  · rw [h0.stream]
    rfl
  · rw [h0.locked]
    exact weigh_eq_zero fun f hf => by rcases h0.frames hf with rfl | rfl <;> rfl
  · refine Multiset.eq_zero_of_forall_notMem fun content hmem => ?_
    obtain ⟨f, hf, hahead⟩ := (Multiset.mem_filterMap _ _).mp hmem
    rcases h0.frames hf with rfl | rfl <;> cases hahead
  · intro tr s l fs R _ _ _ hm hi
    exact hi.step hm

-- ---------------------------------------------------------------------------
-- One thread
-- ---------------------------------------------------------------------------

/-- Where thread `t` is with its calls. -/
inductive Serves (level : Level) (calls : List Call) (lines : List String) : List Frame → Prop
  | fresh : calls = [] → lines = [] → f = .main .setLevel ∨ f = .main .greet ∨ f = .thread →
      Serves level calls lines [f]
  | caller : List.Forall₂ Renders calls lines → Serves level calls lines [.caller]
  | log : List.Forall₂ Renders done lines →
      calls = done ++ (if level.rank ≤ call.actLevel.rank then [call] else []) →
      Serves level calls lines [.log call, .caller]
  | output : List.Forall₂ Renders done lines → calls = done ++ [call] → Renders call content →
      pc ≠ .unlock → Serves level calls lines [.output content pc, .caller]
  | unlock : List.Forall₂ Renders calls lines →
      Serves level calls lines [.output content .unlock, .caller]

theorem Serves.step (hi : Serves p.level calls lines (f :: rest)) (h : FrameStep p σ f c op fs)
    (hlevel : f.settled → σ.logger.level = p.level) (hwrite : σ.logger.isWriteToLogFile) :
    Serves p.level (calls ++ Label.asked p.level t ⟨t, f, c, op⟩) (lines ++ op.fileLine)
      (fs ++ rest) := by
  cases hi with
  | fresh hcalls hlines hf =>
    subst hcalls hlines
    rcases hf with rfl | rfl | rfl <;> cases h
    · exact .fresh rfl rfl (.inr (.inl rfl))
    · exact .caller .nil
    · exact .caller .nil
  | caller hdone =>
    cases h with
    | call => exact .log (by simpa [Op.fileLine] using hdone) (by simp [Label.asked])
    | print | start => exact .caller (by simpa [Label.asked, Op.fileLine] using hdone)
  | log hdone hcalls =>
    have hlevel := hlevel rfl
    cases h with
    | format hl =>
      refine .output (by simpa [Op.fileLine] using hdone) ?_ ⟨_, _, rfl⟩ nofun
      simp [hcalls, ← hlevel, hl, Label.asked]
    | drop hl =>
      exact .caller (by simpa [hcalls, ← hlevel, hl, Label.asked, Op.fileLine] using hdone)
  | output hdone hcalls hrenders hpc =>
    cases h with
    | lock | cout =>
      exact .output (by simpa [Op.fileLine] using hdone) (by simpa [Label.asked] using hcalls)
        hrenders nofun
    | file =>
      refine .unlock ?_
      rw [hcalls]
      simpa [Label.asked, Op.fileLine] using
        List.rel_append hdone (List.Forall₂.cons hrenders .nil)
    | noFile hno => rw [hwrite] at hno; cases hno
    | unlock => exact absurd rfl hpc
  | unlock hdone =>
    cases h with
    | unlock => exact .caller (by simpa [Label.asked, Op.fileLine] using hdone)

theorem Exec.serves (h0 : Opened p k before s₀) (h : (machine p).Exec C s₀ tr s)
    (ht : s.threads[t]? = some stack) :
    Serves p.level (tr.flatMap (Label.asked p.level t)) (tr.flatMap (Label.filed t)) stack := by
  refine h.stacks (I := fun tr _ t stack =>
    Serves p.level (tr.flatMap (Label.asked p.level t)) (tr.flatMap (Label.filed t)) stack)
    ?_ ?_ ?_ t stack ht
  · intro t stack ht
    rw [h0.threads] at ht
    cases t with
    | zero =>
      cases ht
      exact .fresh rfl rfl (.inl rfl)
    | succ t =>
      obtain rfl := List.eq_of_mem_replicate (List.mem_of_getElem? ht)
      exact .fresh rfl rfl (.inr (.inr rfl))
  · intro tr s l fs rest hr _ ht hm hi
    have horder := Exec.orderOk h0 hr
    have hmem : l.frame ∈ s.frames := State.mem_frames.mpr ⟨_, _, ht, List.mem_cons_self⟩
    have hstep := hi.step (t := l.thread) (Frame.step_cases hm)
      (fun hset => horder.settled (.inr ⟨_, hmem, hset⟩)) horder.write
    simpa [Label.filed] using hstep
  · intro tr s l s' t stack _ _ hs hne _ hi
    have hasked : Label.asked p.level t l = [] := by
      unfold Label.asked
      split
      · exact if_neg fun h => hne h.1.symm
      · rfl
    simpa [Label.filed, Ne.symm hne, hasked] using hi

-- ---------------------------------------------------------------------------
-- The log
-- ---------------------------------------------------------------------------

theorem OrderOk.pending (hi : OrderOk p tr σ F) : ∃ pending : List String,
    printed tr = streamed tr ++ pending ∧ pending.length ≤ σ.logger.locked.toNat := by
  obtain ⟨-, -, -, hinside, pending, hpending, hlines⟩ := hi
  refine ⟨pending, hlines, ?_⟩
  have hcard := congrArg Multiset.card hpending
  rw [card_filterMap, Multiset.coe_card] at hcard
  rw [← hcard, ← hinside]
  refine weigh_le fun f _ => ?_
  cases f with
  | output content pc => cases pc <;> first | exact Nat.zero_le _ | exact Nat.le_refl _
  | _ => exact Nat.zero_le _

theorem Prelude.printed (h : Prelude early lines locked stack) :
    ∃ calls, calls <+: early ∧ List.Forall₂ Renders calls lines := by
  cases h with
  | next hcalls hdone | log hcalls hdone | lock hcalls hdone | cout hcalls hdone
  | written hcalls hdone => exact ⟨_, ⟨_, hcalls.symm⟩, hdone⟩

/-- In every run, however the threads take turns, the logger's lines on `cout`
are those from before `Initialize`, then the lines of the file stream in their
order, and then at most one that a thread is just writing. The stream has passed
the first of its bytes on to the file and has the others in its buffer. A thread
that is in no call has put one line there for each of its calls that passes the
level, in the order of its calls. -/
theorem log_lines (h : (machine p).Exec C (initial p k) tr s) :
    (∃ early pending : List String, printed tr = early ++ streamed tr ++ pending ∧
      (∃ calls, calls <+: p.early ∧ List.Forall₂ Renders calls early ∧
        (s.shared.logger.isWriteToLogFile → calls = p.early)) ∧
      pending.length ≤ s.shared.logger.locked.toNat) ∧
    s.shared.logger.outputFileStream.file ++ s.shared.logger.outputFileStream.buffer =
      ((streamed tr).flatMap fun line => line.toUTF8.toList) ∧
    ∀ t, s.threads[t]? = some [.caller] →
      List.Forall₂ Renders (tr.flatMap (Label.asked p.level t)) (tr.flatMap (Label.filed t)) := by
  rcases Exec.opened h with hstart | ⟨before, after, s₁, rfl, hopened, hafter⟩
  · obtain ⟨⟨stack, hthreads, hprelude⟩, -, -, hclosed, hstream, hstreamed, hasked⟩ := hstart
    obtain ⟨calls, hcalls, hrenders⟩ := hprelude.printed
    rw [hstreamed, hstream]
    refine ⟨⟨printed tr, [], by simp, ⟨calls, hcalls, hrenders, ?_⟩, Nat.zero_le _⟩, rfl,
      fun t _ => ?_⟩
    · rw [hclosed]
      exact nofun
    · rw [hasked t, filed_of_streamed hstreamed t]
      exact .nil
  · have horder := Exec.orderOk hopened hafter
    obtain ⟨pending, hlines, hlength⟩ := horder.pending
    rw [printed_append, streamed_append, hopened.streamed, List.nil_append]
    refine ⟨⟨printed before, pending, ?_, ⟨_, List.prefix_refl _, hopened.printed, fun _ => rfl⟩,
      hlength⟩, horder.stream, fun t ht => ?_⟩
    · rw [hlines, List.append_assoc]
    · rw [List.flatMap_append, List.flatMap_append, hopened.asked t,
        filed_of_streamed hopened.streamed t]
      cases Exec.serves hopened hafter ht with
      | fresh _ _ hf => rcases hf with hf | hf | hf <;> cases hf
      | caller hdone => exact hdone

/-- The calls of the source, with such names as the compiler gives them, and
without the text of the greeting. -/
def shipped : Setup := setup 1 "" "src/xian_net.cc" "XianNet::XianNet()"

/-- Thread 1 has logged, and the main thread is between `cout` and the file
stream. The file has got the first five bytes. -/
theorem log_lines_ahead : ∃ (tr : List Label) (s : State),
    (machine shipped).Exec Any (initial shipped 1) tr s ∧
    s.shared.logger.outputFileStream.file.length = 5 ∧
    (∃ early pending : List String, printed tr = early ++ streamed tr ++ pending ∧
      early.length = 2 ∧ (streamed tr).length = 1 ∧ pending.length = 1) ∧
    List.Forall₂ Renders (tr.flatMap (Label.asked .debug 1)) (tr.flatMap (Label.filed 1)) := by
  have h : (((machine shipped).record Any (initial shipped 1)
      ((List.replicate 2 [(0, .go), (0, .clocks 0 0), (0, .go), (0, .go), (0, .flush 0),
          (0, .go)]).flatten ++ List.replicate 3 (0, .go) ++
        [(0, .start), (1, .go), (1, .call (.jsLog .info "" "main")), (1, .clocks 1 7),
          (0, .call (.jsLog .error "" "main")), (0, .clocks 2 0), (1, .go), (1, .go), (1, .flush 5),
          (1, .go), (0, .go), (0, .go)])).any fun r =>
        r.2.shared.logger.outputFileStream.file.length = 5 ∧
        (printed r.1).length = 4 ∧ (streamed r.1).length = 1 ∧
        r.2.shared.logger.isWriteToLogFile ∧ r.2.threads[1]? = some [.caller]) = true := by
    decide +kernel
  obtain ⟨tr, s, hs, hfile, hprinted, hstreamed, hwrite, hcaller⟩ := Machine.exists_of_record h
  obtain ⟨⟨early, pending, hlines, ⟨calls, -, hrenders, hcalls⟩, -⟩, -, hserves⟩ := log_lines hs
  have hearly : early.length = 2 := by
    rw [← hrenders.length_eq, hcalls hwrite]
    rfl
  refine ⟨tr, s, hs, hfile, ⟨early, pending, hlines, hearly, hstreamed, ?_⟩, hserves 1 hcaller⟩
  rw [hlines, List.length_append, List.length_append, hearly, hstreamed] at hprinted
  omega

end XianNet.Log
