import XianNet.Gateway
import XianNet.Replies
import XianNet.Scripts

/-!
# What the scripts do

The main thread runs `Init` once, and only its calls of `newService` and `send`
are made by scripts at all. So the program creates its three services in one
order, under the ids 0 to 2, and the functions of the scripts that run are
`OnInit` of `main`, `OnInit` of `game_board/game_board` and its `Test`, in this
order (`scripted_calls`).
-/

namespace XianNet

open Interleaving

variable {cfg : Config} {σ : Shared} {f : Frame} {fs : List Frame} {op : Op} {c : Choice}
variable {tr : List Label}

-- ---------------------------------------------------------------------------
-- Calls of script functions
-- ---------------------------------------------------------------------------

/-- The function that `ExecuteJsFunction` is about to run. -/
def Frame.jsCall : Frame → Option (ServiceRef × String)
  | .executeJsFunction r name _ _ => some (r, name)
  | _ => none

/-- The calls of `ExecuteJsFunction`, in order. -/
def jsCalls (tr : List Label) : List (ServiceRef × String) := tr.filterMap (·.frame.jsCall)

/-- The function that the message asks for. -/
def BaseMessage.function (m : BaseMessage) : Option String :=
  match m.body with
  | .service b => some b.functionName
  | _ => none

def Op.said : Op → Option (ServiceRef × String)
  | .pushMessage r m => m.function.map (r, ·)
  | _ => none

/-- What services were told to run, in order. -/
def said (tr : List Label) : List (ServiceRef × String) := tr.filterMap (·.op.said)

theorem filterMap_one (g : α → Option β) (a : α) : [a].filterMap g = (g a).toList := by
  cases h : g a <;> simp [h]

theorem jsCalls_append {l : Label} : jsCalls (tr ++ [l]) = jsCalls tr ++ l.frame.jsCall.toList := by
  rw [jsCalls, List.filterMap_append, filterMap_one]
  rfl

theorem said_append {l : Label} : said (tr ++ [l]) = said tr ++ l.op.said.toList := by
  rw [said, List.filterMap_append, filterMap_one]
  rfl

/-- The calls of the function on the service that the frame is there for. -/
def Frame.runs (r : ServiceRef) (name : String) : Frame → Nat
  | .executeJsFunction r' name' _ _ => if r' = r ∧ name' = name then 1 else 0
  | .processServiceMessage r' b => if r' = r ∧ b.functionName = name then 1 else 0
  | .handler r' m => if r' = r ∧ m.function = some name then 1 else 0
  | _ => 0

/-- What is on the way from a message to the function that it names. -/
def Routine.tells : Routine → Bool
  | .executeJsFunction | .processServiceMessage | .handler => true
  | _ => false

theorem runs_of_calls (h : Frame.step σ f c = some (op, fs))
    (hnone : f.routine.calls.any Routine.tells = false) :
    weigh (Frame.runs r name) (fs : Multiset Frame) = 0 := by
  refine weigh_eq_zero fun g hg => ?_
  have hg := List.any_eq_false.mp hnone _ (routine_step h g hg).1
  cases g <;> first | rfl | exact absurd rfl hg

/-- Other functions than the two of the life cycle are run for messages. -/
theorem jsCall_step (h : Frame.step σ f c = some (op, fs)) (hinit : name ≠ "OnInit")
    (hexit : name ≠ "OnExit") :
    f.jsCall.toList.countP (· = (r, name)) + weigh (Frame.runs r name) (fs : Multiset Frame) ≤
      f.runs r name + (op.poppedFrom r).countP (·.function = some name) := by
  cases f with
  | onInitialization r' =>
    cases h
    unfold onInitializationFrames
    split <;> simp [Frame.jsCall, Frame.runs, Ne.symm hinit]
  | onExit r' =>
    cases h
    unfold onExitFrames
    split <;> simp [Frame.jsCall, Frame.runs, Ne.symm hexit]
  | executeJsFunction r' name' content phase =>
    rw [runs_of_calls h rfl]
    by_cases hcall : r' = r ∧ name' = name <;> simp [Frame.jsCall, Frame.runs, hcall]
  | processServiceMessage r' b =>
    cases h
    unfold processServiceMessageFrames
    split <;> simp [Frame.jsCall, Frame.runs]
  | handler r' m =>
    obtain ⟨fs', hfs, heq⟩ := Option.map_eq_some_iff.mp h
    cases heq
    rw [(handlerFrames_cases hfs).2]
    obtain ⟨type, body⟩ := m
    cases body <;> simp [Frame.jsCall, Frame.runs, MessageBody.method, BaseMessage.function]
  | worker w pc =>
    cases WorkerPc.step_cases h with
    | @popMessage r' m =>
      by_cases hr : r' = r <;> simp [Frame.jsCall, Frame.runs, Op.poppedFrom, hr]
    | block hb => cases hb <;> exact Nat.zero_le _
    | _ => exact Nat.zero_le _
  | _ =>
    rw [runs_of_calls h rfl]
    exact Nat.zero_le _

theorem count_pushedTo :
    (op.pushedTo r).countP (·.function = some name) = op.said.toList.countP (· = (r, name)) := by
  cases op with
  | pushMessage r' m =>
    cases hm : m.function with
    | none => by_cases hr : r' = r <;> simp [Op.pushedTo, Op.said, hr, hm]
    | some name' =>
      by_cases hr : r' = r <;> by_cases hn : name' = name <;>
        simp [Op.pushedTo, Op.said, hr, hm, hn]
  | _ => rfl

/-- The calls of the function that are to be made, or that a message asks for. -/
def callsDue (r : ServiceRef) (name : String) (σ : Shared) (F : Multiset Frame) : Nat :=
  weigh (Frame.runs r name) F + (σ.services r).messageQueue.countP (·.function = some name)

theorem callsDue_step (h : Frame.step σ f c = some (op, fs)) (hr : RefsOk σ (f ::ₘ R))
    (hinit : name ≠ "OnInit") (hexit : name ≠ "OnExit") :
    f.jsCall.toList.countP (· = (r, name)) +
        callsDue r name (σ.apply op) ((fs : Multiset Frame) + R) ≤
      callsDue r name σ (f ::ₘ R) + op.said.toList.countP (· = (r, name)) := by
  have hbox := congrArg (List.countP (·.function = some name)) (mailbox_step h hr r)
  have hcalls := jsCall_step (r := r) h hinit hexit
  rw [List.countP_append, List.countP_append, count_pushedTo] at hbox
  simp only [callsDue, weigh_add, weigh_cons]
  omega

/-- The calls that were made and those that are due are no more than were asked
for. -/
theorem Exec.jsCalled (h : system.Exec C (initial n p k) tr s) (hinit : name ≠ "OnInit")
    (hexit : name ≠ "OnExit") :
    (jsCalls tr).countP (· = (r, name)) + callsDue r name s.shared s.frames ≤
      (said tr).countP (· = (r, name)) := by
  refine h.invariant (I := fun tr σ F => (jsCalls tr).countP (· = (r, name)) + callsDue r name σ F ≤
    (said tr).countP (· = (r, name))) ?_ ?_
  · have hzero : weigh (Frame.runs r name) (initial n p k).frames = 0 := weigh_eq_zero fun f hf => by
      rcases mem_initial_frames hf with ⟨i, -, rfl⟩ | rfl | rfl | rfl <;> rfl
    rw [callsDue, hzero]
    exact Nat.le_refl _
  · intro tr s l fs R hr _ hF hm hi
    have hstep : _ + callsDue r name (system.apply s.shared l.op) _ ≤ _ :=
      callsDue_step (r := r) hm (hF ▸ Reach.refsOk ⟨tr, hr⟩) hinit hexit
    rw [jsCalls_append, said_append, List.countP_append, List.countP_append]
    omega

/-- What is about to run for a message was asked for. -/
theorem Exec.said_of_call (h : system.Exec C (initial n p k) tr s) (hf : f ∈ s.frames)
    (hx : f.jsCall = some (1, "Test")) : (1, "Test") ∈ said tr := by
  have hle : (jsCalls tr).countP (· = (1, "Test")) + callsDue 1 "Test" s.shared s.frames ≤
      (said tr).countP (· = (1, "Test")) := Exec.jsCalled h (by decide) (by decide)
  have hpos : 0 < weigh (Frame.runs 1 "Test") s.frames := by
    refine Nat.lt_of_lt_of_le ?_ (le_weigh hf)
    cases f <;> cases hx
    exact Nat.one_pos
  have hsaid : 0 < (said tr).countP (· = (1, "Test")) := by
    rw [callsDue] at hle
    omega
  obtain ⟨x, hmem, hx⟩ := List.countP_pos_iff.mp hsaid
  rwa [of_decide_eq_true hx] at hmem

-- ---------------------------------------------------------------------------
-- What is true at a stage
-- ---------------------------------------------------------------------------

/-- The services of the program, in the order of their creation. -/
def scriptedServices : List (String × ServiceClass) :=
  [("main", .script), ("game_board/game_board", .script), ("gateway", .gateway)]

/-- How far the main thread has got: the services that it has created and
added, and the scripts that it has evaluated. -/
structure Stage where
  created : Nat
  added : Nat
  loaded : Nat

structure Stage.Meets (g : Stage) (tr : List Label) (σ : Shared) : Prop where
  bounds : g.added ≤ g.created ∧ g.loaded ≤ g.created
  allocated : σ.allocated = g.created
  added : XianNet.added tr = List.range g.added
  services : ∀ r < g.created,
    scriptedServices[r]? = some ((σ.services r).name, (σ.services r).cls)
  ids : ∀ r < g.added, (σ.services r).id = UInt32.ofNat r
  functions : ∀ r < g.loaded,
    (σ.services r).jsFunctionMap = (exportsOf (σ.services r).name).map (·.1)

/-- The functions that were run: those, as long as the message is not sent, and
then `Test`. -/
def Ran (tr : List Label) : Option (List (ServiceRef × String)) → Prop
  | some calls => jsCalls tr = calls ∧ said tr = []
  | none => said tr = [(1, "Test")] ∧
      ∃ n, jsCalls tr = [(0, "OnInit"), (1, "OnInit")] ++ List.replicate n (1, "Test")

section
variable {g : Stage} {l : Label} {calls : Option (List (ServiceRef × String))}

theorem Ran.silent (h : Ran tr calls) (hcall : l.frame.jsCall = none) (hsaid : l.op.said = none) :
    Ran (tr ++ [l]) calls := by
  cases calls <;>
    simpa only [Ran, jsCalls_append, said_append, hcall, hsaid, Option.toList_none,
      List.append_nil] using h

theorem Ran.run (h : Ran tr (some ran)) (hcall : l.frame.jsCall = some x)
    (hsaid : l.op.said = none) : Ran (tr ++ [l]) (some (ran ++ [x])) := by
  simp [Ran, jsCalls_append, said_append, hcall, hsaid, h.1, h.2]

theorem Ran.say (h : Ran tr (some [(0, "OnInit"), (1, "OnInit")])) (hcall : l.frame.jsCall = none)
    (hsaid : l.op.said = some (1, "Test")) : Ran (tr ++ [l]) none := by
  refine ⟨by simp [said_append, hsaid, h.2], 0, ?_⟩
  simp [jsCalls_append, hcall, h.1]

theorem Ran.test (h : Ran tr none) (hcall : l.frame.jsCall = some (1, "Test"))
    (hsaid : l.op.said = none) : Ran (tr ++ [l]) none := by
  obtain ⟨hs, n, hn⟩ := h
  refine ⟨by simp [said_append, hsaid, hs], n + 1, ?_⟩
  rw [jsCalls_append, hcall, hn, List.append_assoc, List.replicate_succ']
  rfl

/-- What only `NewService` does, the engine's part included. -/
def Op.isCreation : Op → Bool
  | .newService _ | .addService _ | .setFunctions .. => true
  | _ => false

theorem service_apply (hop : op.isCreation = false) :
    (σ.apply op).allocated = σ.allocated ∧ ∀ r,
      ((σ.apply op).services r).name = (σ.services r).name ∧
      ((σ.apply op).services r).cls = (σ.services r).cls ∧
      ((σ.apply op).services r).id = (σ.services r).id ∧
      ((σ.apply op).services r).jsFunctionMap = (σ.services r).jsFunctionMap := by
  cases op with
  | newService | addService | setFunctions => cases hop
  | pushMessage | popMessage | raiseFlag | clearFlag | setExisting | setServiceId =>
    refine ⟨rfl, fun r => ?_⟩
    simp only [Shared.apply, services_updateService]
    split <;> simp [*]
  | _ => exact ⟨rfl, fun _ => ⟨rfl, rfl, rfl, rfl⟩⟩

theorem added_append : added (tr ++ [l]) = added tr ++ l.op.added := by
  simp [added]

/-- A step that creates nothing keeps what is said about the services. -/
theorem Stage.Meets.silent (hi : g.Meets tr σ) (hop : l.op.isCreation = false) :
    g.Meets (tr ++ [l]) (σ.apply l.op) := by
  obtain ⟨hsame, hservices⟩ := service_apply (σ := σ) hop
  have hnone : l.op.added = [] := by
    cases hl : l.op <;> first | rfl | (rw [hl] at hop; cases hop)
  refine ⟨hi.bounds, hsame.trans hi.allocated, ?_, fun r hr => ?_, fun r hr => ?_, fun r hr => ?_⟩
  · rw [added_append, hnone, List.append_nil]
    exact hi.added
  · rw [(hservices r).1, (hservices r).2.1]
    exact hi.services r hr
  · rw [(hservices r).2.2.1]
    exact hi.ids r hr
  · rw [(hservices r).1, (hservices r).2.2.2]
    exact hi.functions r hr

theorem Stage.Meets.create (hi : Meets ⟨n, a, b⟩ tr σ) (hop : l.op = .newService service)
    (hservice : scriptedServices[n]? = some (service.name, service.cls)) :
    Meets ⟨n + 1, a, b⟩ (tr ++ [l]) (σ.apply l.op) := by
  have hold : ∀ r < n, (σ.apply (.newService service)).services r = σ.services r := fun r hr => by
    simp [Shared.apply, hi.allocated, Nat.ne_of_lt hr]
  have hnew : (σ.apply (.newService service)).services n = service := by
    simp [Shared.apply, hi.allocated]
  obtain ⟨ha, hb⟩ := hi.bounds
  rw [hop]
  refine ⟨⟨Nat.le_succ_of_le ha, Nat.le_succ_of_le hb⟩, congrArg (· + 1) hi.allocated, ?_,
    fun r hr => ?_, fun r hr => ?_, fun r hr => ?_⟩
  · rw [added_append, hop]
    exact (List.append_nil _).trans hi.added
  · rcases Nat.lt_succ_iff_lt_or_eq.mp hr with hr | rfl
    · rw [hold r hr]
      exact hi.services r hr
    · rw [hnew]
      exact hservice
  · rw [hold r (Nat.lt_of_lt_of_le hr ha)]
    exact hi.ids r hr
  · rw [hold r (Nat.lt_of_lt_of_le hr hb)]
    exact hi.functions r hr

theorem service_setFunctions (r' : ServiceRef) :
    ((σ.apply (.setFunctions r names)).services r').name = (σ.services r').name ∧
      ((σ.apply (.setFunctions r names)).services r').cls = (σ.services r').cls ∧
      ((σ.apply (.setFunctions r names)).services r').id = (σ.services r').id := by
  simp only [Shared.apply, services_updateService]
  split <;> simp [*]

theorem Stage.Meets.load (hi : Meets ⟨n, a, b⟩ tr σ) (hlt : b < n)
    (hop : l.op = .setFunctions b ((exportsOf (σ.services b).name).map (·.1))) :
    Meets ⟨n, a, b + 1⟩ (tr ++ [l]) (σ.apply l.op) := by
  rw [hop]
  refine ⟨⟨hi.bounds.1, hlt⟩, hi.allocated, ?_, fun r hr => ?_, fun r hr => ?_, fun r hr => ?_⟩
  · rw [added_append, hop]
    exact (List.append_nil _).trans hi.added
  · rw [(service_setFunctions r).1, (service_setFunctions r).2.1]
    exact hi.services r hr
  · rw [(service_setFunctions r).2.2]
    exact hi.ids r hr
  · rw [(service_setFunctions r).1]
    by_cases heq : r = b
    · simp [heq, Shared.apply]
    · simp only [Shared.apply, services_updateService, if_neg heq]
      exact hi.functions r (Nat.lt_of_le_of_ne (Nat.le_of_lt_succ hr) heq)

theorem service_addService (r' : ServiceRef) :
    ((σ.addService r).services r').name = (σ.services r').name ∧
      ((σ.addService r).services r').cls = (σ.services r').cls ∧
      ((σ.addService r).services r').jsFunctionMap = (σ.services r').jsFunctionMap := by
  simp only [Shared.addService, services_updateService]
  split <;> simp [*]

theorem Stage.Meets.add (hi : Meets ⟨n, a, b⟩ tr σ) (hlt : a < n) (hop : l.op = .addService a)
    (hnext : σ.serviceMap.autoIncrementId = UInt32.ofNat a) :
    Meets ⟨n, a + 1, b⟩ (tr ++ [l]) (σ.apply l.op) := by
  have hsame : σ.apply l.op = σ.addService a := by rw [hop]; rfl
  rw [hsame]
  refine ⟨⟨hlt, hi.bounds.2⟩, hi.allocated, ?_, fun r hr => ?_, fun r hr => ?_, fun r hr => ?_⟩
  · rw [added_append, hop, List.range_succ, hi.added]
    rfl
  · rw [(service_addService r).1, (service_addService r).2.1]
    exact hi.services r hr
  · by_cases heq : r = a
    · rw [heq, id_addService, hnext]
    · have hlt' : r < a := Nat.lt_of_le_of_ne (Nat.le_of_lt_succ hr) heq
      have hold : r < σ.allocated := hi.allocated ▸ hlt'.trans hlt
      have hnot : r ∉ (Op.addService a).added := by simpa [Op.added] using heq
      exact (id_apply hold hnot).trans (hi.ids r hlt')
  · rw [(service_addService r).1, (service_addService r).2.2]
    exact hi.functions r hr

end

-- ---------------------------------------------------------------------------
-- The outline of the main thread
-- ---------------------------------------------------------------------------

/-- A frame that runs no statements. -/
abbrev call (f : Frame) : ScriptedFrame := .of [] (.frame f)

abbrev mainAt (pc : MainPc) : ScriptedFrame := .of [] (.main pc)

abbrev onInit (r : ServiceRef) (code : List Statement) (service : Option ServiceRef) :
    ScriptedFrame :=
  ⟨.frame (.script r .onInit), code, service⟩

def testMessage (source : UInt32) : BaseMessage := ⟨.service, .service ⟨source, "Test", ""⟩⟩

/-- A call of `NewScriptService` in the main thread: the service, what was run
before, the statements of its `OnInit`, and who has called. -/
inductive NewScript : ServiceRef → List (ServiceRef × String) → List Statement →
    List ScriptedFrame → Prop
  | main : NewScript 0 [] [.newService "game_board/game_board", .send "Test"]
      [mainAt .newGatewayService]
  | gameBoard : NewScript 1 [(0, "OnInit")] []
      [onInit 0 [.send "Test"] (some 1), mainAt .newGatewayService]

/-- Where the main thread can be. -/
inductive Outline : Stage → Option (List (ServiceRef × String)) → List ScriptedFrame → Prop
  | start : Outline ⟨0, 0, 0⟩ (some []) [mainAt .newScriptService]
  | construct : NewScript r ran code rest → Outline ⟨r + 1, r, r⟩ (some ran)
      (call (.script r .construct) :: call (.addService r) :: call (.onInitialization r) :: rest)
  | add : NewScript r ran code rest → Outline ⟨r + 1, r, r + 1⟩ (some ran)
      (call (.addService r) :: call (.onInitialization r) :: rest)
  | onInitialization : NewScript r ran code rest → Outline ⟨r + 1, r + 1, r + 1⟩ (some ran)
      (call (.onInitialization r) :: rest)
  | execute : NewScript r ran code rest → Outline ⟨r + 1, r + 1, r + 1⟩ (some ran)
      (call (.executeJsFunction r "OnInit" "" .onInit) :: rest)
  | run : NewScript r ran code rest → Outline ⟨r + 1, r + 1, r + 1⟩ (some (ran ++ [(r, "OnInit")]))
      (onInit r code none :: rest)
  | created : Outline ⟨2, 2, 2⟩ (some [(0, "OnInit"), (1, "OnInit")])
      [onInit 0 [.send "Test"] (some 1), mainAt .newGatewayService]
  | find : Outline ⟨2, 2, 2⟩ (some [(0, "OnInit"), (1, "OnInit")])
      [call (.send (.find 1 (testMessage source))), onInit 0 [] (some 1), mainAt .newGatewayService]
  | push : Outline ⟨2, 2, 2⟩ (some [(0, "OnInit"), (1, "OnInit")])
      [call (.send (.pushMessage 1 (testMessage source))), onInit 0 [] (some 1),
        mainAt .newGatewayService]
  | sending : (Frame.send pc).message = none → Outline ⟨2, 2, 2⟩ none
      [call (.send pc), onInit 0 [] (some 1), mainAt .newGatewayService]
  | sent : Outline ⟨2, 2, 2⟩ none [onInit 0 [] (some 1), mainAt .newGatewayService]
  | returned : Outline ⟨2, 2, 2⟩ none [mainAt .newGatewayService]
  | addGateway : Outline ⟨3, 2, 2⟩ none
      [call (.addService 2), call (.onInitialization 2), mainAt (.listen 2)]
  | gatewayAdded : Outline ⟨3, 3, 2⟩ none [call (.onInitialization 2), mainAt (.listen 2)]
  | listen : Outline ⟨3, 3, 2⟩ none [mainAt (.listen 2)]
  | listening : Outline ⟨3, 3, 2⟩ none [call (.listen pc), mainAt .wait]
  | wait : Outline ⟨3, 3, 2⟩ none [mainAt .wait]

/-- What is true when the main thread is there. -/
def Outlined (tr : List Label) (σ : Shared) (stack : List ScriptedFrame) : Prop :=
  ∃ g ran, Outline g ran stack ∧ g.Meets tr σ ∧ Ran tr ran

/-- The step of a frame that is not script code. -/
theorem scripted_frame {sf : ScriptedFrame} {f : Frame} (hsf : sf.frame = .frame f)
    (h : ScriptedFrame.step cfg σ sf c = some (op, gs)) (hf : ∀ r phase, f ≠ .script r phase) :
    ∃ fs, Frame.step σ f c = some (op, fs) ∧
      gs = fs.map fun g => .of ((ServerFrame.frame f).body σ) (.frame g) := by
  obtain ⟨fs, hstep, rfl⟩ := scripted_other h fun r phase heq =>
    hf r phase (ServerFrame.frame.inj (hsf.symm.trans heq))
  rw [hsf] at hstep
  obtain ⟨fs, rfl, -, -, hm⟩ := frame_step hstep
  exact ⟨fs, hm, by rw [hsf, List.map_map]; rfl⟩

section
variable {l : Label} {g : Stage} {ran : List (ServiceRef × String)} {code : List Statement}
variable {gs rest stack : List ScriptedFrame}

/-- A step that creates nothing, says nothing and runs nothing. -/
theorem Outlined.silent {calls : Option (List (ServiceRef × String))} (h : Outline g calls stack)
    (hg : g.Meets tr σ) (hran : Ran tr calls) (hcall : l.frame.jsCall = none)
    (hop : l.op.isCreation = false) (hsaid : l.op.said = none) :
    Outlined (tr ++ [l]) (σ.apply l.op) stack :=
  ⟨g, calls, h, hg.silent hop, hran.silent hcall hsaid⟩

theorem NewScript.file (hn : NewScript r ran code rest) (hg : Stage.Meets ⟨r + 1, a, b⟩ tr σ) :
    (σ.services r).cls = .script ∧
      ((exportsOf (σ.services r).name).map (·.1)).map ScriptService.toString =
        (exportsOf (σ.services r).name).map (·.1) ∧
      (exportsOf (σ.services r).name).lookup "OnInit" = some code := by
  have hservice := hg.services r (Nat.lt_succ_self r)
  cases hn <;>
  · obtain ⟨hname, hcls⟩ := Prod.mk.inj (Option.some.inj hservice)
    rw [← hname, ← hcls]
    decide

/-- `new ScriptService`, up to the end of its constructor. -/
theorem Outlined.construct (hn : NewScript r ran code rest) (hg : Stage.Meets ⟨r + 1, r, r⟩ tr σ)
    (hran : Ran tr (some ran)) (hl : l.frame = .script r .construct) (hop : l.op = op)
    (hm : ScriptedFrame.step cfg σ (call (.script r .construct)) c = some (op, gs)) :
    Outlined (tr ++ [l]) (σ.apply l.op)
      (gs ++ call (.addService r) :: call (.onInitialization r) :: rest) := by
  have hstep : scriptedStep σ r .construct none [] c = some (op, gs) := hm
  cases scriptedStep_cases hstep with
  | exports =>
    rw [(hn.file hg).2.1] at hop
    exact ⟨_, _, .add hn, hg.load (Nat.lt_succ_self r) hop,
      hran.silent (by rw [hl]; rfl) (by rw [hop]; rfl)⟩
  | ret hphase => exact absurd rfl hphase

theorem Outlined.addService {stack : List ScriptedFrame} (hlt : g.added < g.created)
    (h : Outline { g with added := g.added + 1 } calls stack) (hg : g.Meets tr σ)
    (hran : Ran tr calls) (hl : l.frame = .addService g.added) (hop : l.op = op)
    (hnext : σ.serviceMap.autoIncrementId = UInt32.ofNat (added tr).length)
    (hm : ScriptedFrame.step cfg σ (call (.addService g.added)) c = some (op, gs)) :
    Outlined (tr ++ [l]) (σ.apply l.op) (gs ++ stack) := by
  obtain ⟨fs, hstep, rfl⟩ := scripted_frame rfl hm fun _ _ => nofun
  cases hstep
  rw [hg.added, List.length_range] at hnext
  exact ⟨_, _, h, hg.add hlt hop hnext, hran.silent (by rw [hl]; rfl) (by rw [hop]; rfl)⟩

/-- `OnInitialization`, and `ExecuteJsFunction` up to the call. -/
theorem Outlined.onInitialization (hn : NewScript r ran code rest)
    (hg : Stage.Meets ⟨r + 1, r + 1, r + 1⟩ tr σ) (hran : Ran tr (some ran))
    (hl : l.frame = .onInitialization r) (hop : l.op = op)
    (hm : ScriptedFrame.step cfg σ (call (.onInitialization r)) c = some (op, gs)) :
    Outlined (tr ++ [l]) (σ.apply l.op) (gs ++ rest) := by
  obtain ⟨fs, hstep, rfl⟩ := scripted_frame rfl hm fun _ _ => nofun
  cases hstep
  rw [onInitializationFrames, (hn.file hg).1]
  exact .silent (.execute hn) hg hran (by rw [hl]; rfl) (by rw [hop]; rfl) (by rw [hop]; rfl)

theorem Outlined.execute (hn : NewScript r ran code rest)
    (hg : Stage.Meets ⟨r + 1, r + 1, r + 1⟩ tr σ) (hran : Ran tr (some ran))
    (hl : l.frame = .executeJsFunction r "OnInit" "" .onInit) (hop : l.op = op)
    (hm : ScriptedFrame.step cfg σ (call (.executeJsFunction r "OnInit" "" .onInit)) c =
      some (op, gs)) :
    Outlined (tr ++ [l]) (σ.apply l.op) (gs ++ rest) := by
  obtain ⟨fs, hstep, rfl⟩ := scripted_frame rfl hm fun _ _ => nofun
  have hbody := (hn.file hg).2.2
  have hmem : "OnInit" ∈ (σ.services r).jsFunctionMap := by
    obtain ⟨before, after, heq, -⟩ := List.lookup_eq_some_iff.mp hbody
    rw [hg.functions r (Nat.lt_succ_self r), heq]
    simp
  simp only [Frame.step, if_pos hmem] at hstep
  cases hstep
  simp only [List.map_cons, List.map_nil, ServerFrame.body, hbody, Option.getD_some]
  exact ⟨_, _, .run hn, hg.silent (by rw [hop]; rfl), hran.run (by rw [hl]; rfl) (by rw [hop]; rfl)⟩

/-- The `OnInit` functions. -/
theorem Outlined.run (hn : NewScript r ran code rest)
    (hg : Stage.Meets ⟨r + 1, r + 1, r + 1⟩ tr σ) (hran : Ran tr (some (ran ++ [(r, "OnInit")])))
    (hl : l.frame = .script r .onInit) (hop : l.op = op)
    (hm : ScriptedFrame.step cfg σ (onInit r code none) c = some (op, gs)) :
    Outlined (tr ++ [l]) (σ.apply l.op) (gs ++ rest) := by
  have hstep : scriptedStep σ r .onInit none code c = some (op, gs) := hm
  cases hn with
  | main =>
    cases scriptedStep_cases hstep with
    | newService =>
      rw [hg.allocated]
      exact ⟨_, _, .construct .gameBoard, hg.create hop rfl,
        hran.silent (by rw [hl]; rfl) (by rw [hop]; rfl)⟩
  | gameBoard =>
    cases scriptedStep_cases hstep with
    | exports hphase => cases hphase
    | ret => exact .silent .created hg hran (by rw [hl]; rfl) (by rw [hop]; rfl) (by rw [hop]; rfl)

theorem Outlined.send (hg : Stage.Meets ⟨2, 2, 2⟩ tr σ)
    (hran : Ran tr (some [(0, "OnInit"), (1, "OnInit")])) (hl : l.frame = .script 0 .onInit)
    (hop : l.op = op)
    (hm : ScriptedFrame.step cfg σ (onInit 0 [.send "Test"] (some 1)) c = some (op, gs)) :
    Outlined (tr ++ [l]) (σ.apply l.op) (gs ++ [mainAt .newGatewayService]) := by
  have hstep : scriptedStep σ 0 .onInit (some 1) [.send "Test"] c = some (op, gs) := hm
  cases scriptedStep_cases hstep with
  | send =>
    rw [hg.ids 1 (by decide)]
    exact .silent .find hg hran (by rw [hl]; rfl) (by rw [hop]; rfl) (by rw [hop]; rfl)

theorem Outlined.sends (hi : Outline g calls (call (.send pc) :: rest)) (hg : g.Meets tr σ)
    (hran : Ran tr calls) (hl : l.frame = .send pc) (hop : l.op = op)
    (hfound : σ.serviceMap.find 1 = some 1)
    (hm : ScriptedFrame.step cfg σ (call (.send pc)) c = some (op, gs)) :
    Outlined (tr ++ [l]) (σ.apply l.op) (gs ++ rest) := by
  obtain ⟨fs, hstep, rfl⟩ := scripted_frame rfl hm fun _ _ => nofun
  have hcall : l.frame.jsCall = none := by rw [hl]; rfl
  have hsend := SendPc.step_cases hstep
  cases hi with
  | find =>
    cases hsend with
    | unknown hnone => rw [hfound] at hnone; cases hnone
    | found hfind =>
      rw [hfound] at hfind
      cases hfind
      exact .silent .push hg hran hcall (by rw [hop]; rfl) (by rw [hop]; rfl)
  | push =>
    cases hsend with
    | pushMessage =>
      exact ⟨_, _, .sending rfl, hg.silent (by rw [hop]; rfl), hran.say hcall (by rw [hop]; rfl)⟩
  | sending hnone =>
    cases hsend with
    | unknown | found | pushMessage => cases hnone
    | lost => exact .silent .sent hg hran hcall (by rw [hop]; rfl) (by rw [hop]; rfl)
    | won | push =>
      exact .silent (.sending rfl) hg hran hcall (by rw [hop]; rfl) (by rw [hop]; rfl)
    | @wakeUp p op next hw =>
      have hop' : op.isCreation = false ∧ op.said = none := by cases hw <;> exact ⟨rfl, rfl⟩
      cases next with
      | none => exact .silent .sent hg hran hcall (hop ▸ hop'.1) (hop ▸ hop'.2)
      | some p' => exact .silent (.sending rfl) hg hran hcall (hop ▸ hop'.1) (hop ▸ hop'.2)

/-- `Init`. -/
theorem Outlined.main (hi : Outline g calls (mainAt pc :: rest)) (hg : g.Meets tr σ)
    (hran : Ran tr calls) (hl : l.frame = .caller) (hop : l.op = op)
    (hfile : cfg.startFile = "main")
    (hm : ScriptedFrame.step cfg σ (mainAt pc) c = some (op, gs)) :
    Outlined (tr ++ [l]) (σ.apply l.op) (gs ++ rest) := by
  obtain ⟨fs, hstep, rfl⟩ := scripted_other hm fun _ _ => nofun
  have hcall : l.frame.jsCall = none := by rw [hl]; rfl
  have hmain : MainStep cfg σ pc c op fs := MainPc.step_cases hstep
  cases hi with
  | start =>
    cases hmain with
    | newScriptService =>
      rw [hg.allocated]
      rw [hfile] at hop
      exact ⟨_, _, .construct .main, hg.create hop rfl, hran.silent hcall (by rw [hop]; rfl)⟩
  | returned =>
    cases hmain with
    | newGatewayService =>
      rw [hg.allocated]
      exact ⟨_, _, .addGateway, hg.create hop rfl, hran.silent hcall (by rw [hop]; rfl)⟩
  | listen =>
    cases hmain with
    | listen => exact .silent .listening hg hran hcall (by rw [hop]; rfl) (by rw [hop]; rfl)
  | wait => cases hmain

theorem Outlined.listens (hg : Stage.Meets ⟨3, 3, 2⟩ tr σ) (hran : Ran tr none)
    (hl : l.frame = .listen pc) (hop : l.op = op)
    (hm : ScriptedFrame.step cfg σ (call (.listen pc)) c = some (op, gs)) :
    Outlined (tr ++ [l]) (σ.apply l.op) (gs ++ [mainAt .wait]) := by
  obtain ⟨fs, hstep, rfl⟩ := scripted_frame rfl hm fun _ _ => nofun
  have hcall : l.frame.jsCall = none := by rw [hl]; rfl
  cases ListenPc.step_cases hstep with
  | ret => exact .silent .wait hg hran hcall (by rw [hop]; rfl) (by rw [hop]; rfl)
  | _ => exact .silent .listening hg hran hcall (by rw [hop]; rfl) (by rw [hop]; rfl)

/-- A step of the main thread goes on in the outline. -/
theorem Outlined.step {sf : ScriptedFrame} (hi : Outlined tr σ (sf :: rest))
    (hl : l.frame = sf.frame.toFrame) (hop : l.op = op) (hfile : cfg.startFile = "main")
    (hnext : σ.serviceMap.autoIncrementId = UInt32.ofNat (added tr).length)
    (hfound : ∀ r ∈ added tr, σ.serviceMap.find (σ.services r).id = some r)
    (hm : ScriptedFrame.step cfg σ sf c = some (op, gs)) :
    Outlined (tr ++ [l]) (σ.apply l.op) (gs ++ rest) := by
  obtain ⟨g, calls, h, hg, hran⟩ := hi
  have hboard : 1 < g.added → σ.serviceMap.find 1 = some 1 := fun hlt => by
    have hmem : 1 ∈ added tr := by rw [hg.added]; exact List.mem_range.mpr hlt
    have hfind := hfound 1 hmem
    rwa [hg.ids 1 hlt] at hfind
  cases h with
  | start => exact .main .start hg hran hl hop hfile hm
  | construct hn => exact .construct hn hg hran hl hop hm
  | add hn => exact .addService (Nat.lt_succ_self _) (.onInitialization hn) hg hran hl hop hnext hm
  | onInitialization hn => exact .onInitialization hn hg hran hl hop hm
  | execute hn => exact .execute hn hg hran hl hop hm
  | run hn => exact .run hn hg hran hl hop hm
  | created => exact .send hg hran hl hop hm
  | find => exact .sends .find hg hran hl hop (hboard (by decide)) hm
  | push => exact .sends .push hg hran hl hop (hboard (by decide)) hm
  | sending hpc => exact .sends (.sending hpc) hg hran hl hop (hboard (by decide)) hm
  | sent =>
    have hstep : scriptedStep σ 0 .onInit (some 1) [] c = some (op, gs) := hm
    cases scriptedStep_cases hstep with
    | exports hphase => cases hphase
    | ret =>
      exact .silent .returned hg hran (by rw [hl]; rfl) (by rw [hop]; rfl) (by rw [hop]; rfl)
  | returned => exact .main .returned hg hran hl hop hfile hm
  | addGateway => exact .addService (by decide) .gatewayAdded hg hran hl hop hnext hm
  | gatewayAdded =>
    obtain ⟨fs, hstep, rfl⟩ := scripted_frame rfl hm fun _ _ => nofun
    obtain ⟨-, hcls⟩ := Prod.mk.inj (Option.some.inj (hg.services 2 (by decide)))
    cases hstep
    rw [onInitializationFrames, ← hcls]
    exact .silent .listen hg hran (by rw [hl]; rfl) (by rw [hop]; rfl) (by rw [hop]; rfl)
  | listen => exact .main .listen hg hran hl hop hfile hm
  | listening => exact .listens hg hran hl hop hm
  | wait => exact .main .wait hg hran hl hop hfile hm

end

-- ---------------------------------------------------------------------------
-- The other threads
-- ---------------------------------------------------------------------------

/-- What the other threads can be in: of the scripts, `Test`. -/
def ScriptedFrame.Tame (f : ScriptedFrame) : Prop :=
  match f.frame with
  | .frame (.worker ..) | .frame (.socket _) | .frame .network | .frame (.gateway _)
  | .frame (.accept _) | .frame (.handler ..) | .frame (.processServiceMessage ..)
  | .frame (.processSocketAcceptMessage ..) | .frame (.processSocketRwMessage ..) => True
  | .frame (.send pc) => ∀ m, (Frame.send pc).message = some m → m.function = none
  | .frame (.executeJsFunction r name _ phase) => r = 1 ∧ name = "Test" ∧ phase = .handler
  | .frame (.script _ phase) => phase = .handler ∧ f.code = []
  | _ => False

/-- What a step of another thread may do. -/
structure TameStep (op : Op) (gs : List ScriptedFrame) : Prop where
  keeps : op.isCreation = false
  said : op.said = none
  tame : ∀ g ∈ gs, g.Tame

theorem TameStep.of_frames {code : List Statement} (hkeeps : op.isCreation = false)
    (hsaid : op.said = none) (h : ∀ g ∈ fs, (ScriptedFrame.of code (.frame g)).Tame) :
    TameStep op (fs.map fun g => .of code (.frame g)) :=
  ⟨hkeeps, hsaid, List.forall_mem_map.mpr h⟩

section
variable {gs stack : List ScriptedFrame} {sf : ScriptedFrame}

/-- Once the message is sent, `game_board/game_board` is there. -/
theorem Outlined.of_said (hi : Outlined tr σ stack) (hx : x ∈ said tr) :
    x = (1, "Test") ∧ (σ.services 1).name = "game_board/game_board" ∧
      ∃ g, Outline g none stack ∧ g.Meets tr σ ∧ Ran tr none := by
  obtain ⟨g, calls, h, hg, hran⟩ := hi
  cases calls with
  | some => rw [hran.2] at hx; cases hx
  | none =>
    have hcreated : 1 < g.created := by cases h <;> decide
    rw [hran.1] at hx
    refine ⟨List.mem_singleton.mp hx, ?_, g, h, hg, hran⟩
    exact (Prod.mk.inj (Option.some.inj (hg.services 1 hcreated))).1.symm

section
attribute [local simp] ScriptedFrame.Tame ScriptedFrame.of Frame.message BaseMessage.function
  acceptMessage rwMessage

/-- A step of a frame that is not script code. -/
theorem tame_frame {code : List Statement} (hi : Outlined tr σ stack)
    (hf : (⟨.frame f, code, service⟩ : ScriptedFrame).Tame) (h : Frame.step σ f c = some (op, fs))
    (hscript : ∀ r phase, f ≠ .script r phase)
    (hprocess : ∀ r b, f = .processServiceMessage r b → (r, b.functionName) ∈ said tr)
    (hcall : ∀ x, f.jsCall = some x → x ∈ said tr) :
    TameStep op (fs.map fun g => .of ((ServerFrame.frame f).body σ) (.frame g)) := by
  cases f with
  | caller | addService | onInitialization | onExit | kill | listen | close | modifyEvent => cases hf
  | script r phase => exact absurd rfl (hscript r phase)
  | executeJsFunction r name content phase =>
    obtain ⟨rfl, rfl, rfl⟩ : r = 1 ∧ name = "Test" ∧ phase = .handler := hf
    obtain ⟨-, hname, -⟩ := hi.of_said (hcall _ rfl)
    have hbody : (ServerFrame.frame (.executeJsFunction 1 "Test" content .handler)).body σ = [] := by
      rw [ServerFrame.body, hname]
      rfl
    rw [hbody]
    simp only [Frame.step] at h
    cases h
    split <;> exact .of_frames rfl rfl (by simp)
  | handler r m =>
    obtain ⟨fs', hfs, heq⟩ := Option.map_eq_some_iff.mp h
    cases heq
    rw [(handlerFrames_cases hfs).2]
    obtain ⟨type, body⟩ := m
    cases body <;> exact .of_frames rfl rfl (by simp [MessageBody.method])
  | processServiceMessage r b =>
    cases h
    refine .of_frames rfl rfl fun g hg => ?_
    obtain ⟨heq, -, -⟩ := hi.of_said (hprocess r b rfl)
    obtain ⟨rfl, hname⟩ := Prod.mk.inj heq
    rw [processServiceMessageFrames_calls hg]
    exact ⟨rfl, hname, rfl⟩
  | processSocketAcceptMessage =>
    cases h
    exact .of_frames rfl rfl (by simp [processSocketAcceptMessageFrames])
  | processSocketRwMessage r b =>
    cases h
    refine .of_frames rfl rfl fun g hg => ?_
    obtain ⟨pc, rfl⟩ := processSocketRwMessageFrames_calls hg
    trivial
  | worker w pc =>
    cases WorkerPc.step_cases h with
    | block hb => cases hb <;> exact .of_frames rfl rfl (by simp)
    | _ => exact .of_frames rfl rfl (by simp)
  | network => cases networkStep_cases h <;> exact .of_frames rfl rfl (by simp)
  | gateway pc => cases GatewayPc.step_cases h <;> exact .of_frames rfl rfl (by simp)
  | accept pc => cases AcceptPc.step_cases h <;> exact .of_frames rfl rfl (by simp)
  | socket pc =>
    cases SocketPc.step_cases h with
    | event =>
      refine .of_frames rfl rfl fun g hg => ?_
      rcases eventFrames_cases hg with ⟨-, -, rfl⟩ | ⟨-, rfl⟩ | rfl <;> simp
    | _ => exact .of_frames rfl rfl (by simp)
  | send pc =>
    cases SendPc.step_cases h with
    | wakeUp hw => cases hw <;> exact .of_frames rfl rfl (by simp)
    | @pushMessage r m =>
      have hnone : m.function = none := hf m rfl
      exact .of_frames rfl (congrArg (Option.map (r, ·)) hnone) (by simp)
    | found => exact .of_frames rfl rfl (List.forall_mem_singleton.mpr hf)
    | _ => exact .of_frames rfl rfl (by simp)

theorem tame_step (hi : Outlined tr σ stack) (hsf : sf.Tame)
    (hm : ScriptedFrame.step cfg σ sf c = some (op, gs))
    (hprocess : ∀ r b, sf.frame = .frame (.processServiceMessage r b) →
      (r, b.functionName) ∈ said tr)
    (hcall : ∀ x, sf.frame.toFrame.jsCall = some x → x ∈ said tr) : TameStep op gs := by
  obtain ⟨frame, code, service⟩ := sf
  cases frame with
  | main => cases hsf
  | frame f =>
    by_cases hscript : ∃ r phase, f = .script r phase
    · obtain ⟨r, phase, rfl⟩ := hscript
      obtain ⟨rfl, rfl⟩ : phase = .handler ∧ code = [] := hsf
      have hstep : scriptedStep σ r .handler service [] c = some (op, gs) := hm
      cases scriptedStep_cases hstep with
      | exports hphase => cases hphase
      | ret => exact ⟨rfl, rfl, fun g hg => absurd hg List.not_mem_nil⟩
    · have hscript : ∀ r phase, f ≠ .script r phase := fun r phase heq => hscript ⟨r, phase, heq⟩
      obtain ⟨fs, hstep, rfl⟩ := scripted_frame rfl hm hscript
      exact tame_frame hi hsf hstep hscript
        (fun r b hf => hprocess r b (congrArg _ hf)) hcall

end

/-- A step of another thread does not disturb the outline. -/
theorem Outlined.other {l : Label} (hi : Outlined tr σ stack)
    (hcall : ∀ x, l.frame.jsCall = some x → x ∈ said tr) (hop : TameStep l.op gs) :
    Outlined (tr ++ [l]) (σ.apply l.op) stack := by
  cases hrun : l.frame.jsCall with
  | none =>
    obtain ⟨g, calls, h, hg, hran⟩ := hi
    exact .silent h hg hran hrun hop.keeps hop.said
  | some x =>
    obtain ⟨rfl, -, g, h, hg, hran⟩ := hi.of_said (hcall x hrun)
    exact ⟨g, none, h, hg.silent hop.keeps, hran.test hrun hop.said⟩

end

-- ---------------------------------------------------------------------------
-- Runs
-- ---------------------------------------------------------------------------

variable {s₀ s : ScriptedState} {tr : List ScriptedLabel}

/-- The run of the system that a run with the scripts is. -/
abbrev scriptedTrace (tr : List ScriptedLabel) : List Label := toSystem (toServer tr)

theorem Config.scripted_threads (h0 : cfg.scriptedInitial = some s₀) :
    ∃ workers : List ServiceWorker, workers.length = cfg.threads ∧
      s₀ = ⟨Shared.initial cfg.threads, workers.map (fun w => [call (.worker w .popFront)]) ++
        [[call (.socket .epollWait)], [call .network], [mainAt .newScriptService]]⟩ := by
  obtain ⟨s₁, h1, rfl⟩ := Option.map_eq_some_iff.mp h0
  obtain ⟨workers, hworkers, rfl⟩ := Option.map_eq_some_iff.mp h1
  refine ⟨workers, ?_, ?_⟩
  · rw [mapM_eq_map hworkers fun i => ⟨i, 0⟩, List.length_map, List.length_range]
    rfl
  · simp [State.map, Config.threads]

theorem Outlined.initial : Outlined [] (Shared.initial n) [mainAt .newScriptService] :=
  ⟨_, _, .start, ⟨⟨Nat.le_refl _, Nat.le_refl _⟩, rfl, rfl, nofun, nofun, nofun⟩, rfl, rfl⟩

theorem mem_said {tr : List Label} (hl : l ∈ tr) (hop : l.op = .pushMessage r m)
    (hm : m.function = some name) : (r, name) ∈ said tr :=
  List.mem_filterMap.mpr ⟨l, hl, by rw [hop, Op.said, hm]; rfl⟩

theorem scripted_initial_tame {stack : List ScriptedFrame} (h0 : cfg.scriptedInitial = some s₀)
    (ht : t ≠ cfg.threads + 2) (hstack : s₀.threads[t]? = some stack) : ∀ f ∈ stack, f.Tame := by
  obtain ⟨workers, hlength, rfl⟩ := Config.scripted_threads h0
  rw [← hlength] at ht
  simp only at hstack
  rw [List.getElem?_append] at hstack
  split at hstack
  · obtain ⟨w, -, rfl⟩ := List.mem_map.mp (List.mem_of_getElem? hstack)
    exact List.forall_mem_singleton.mpr trivial
  · rename_i hge
    rw [List.length_map] at hge hstack
    obtain ⟨d, rfl⟩ := Nat.exists_eq_add_of_le (Nat.not_lt.mp hge)
    rw [Nat.add_sub_cancel_left] at hstack
    match d with
    | 0 | 1 =>
      cases hstack
      exact List.forall_mem_singleton.mpr trivial
    | 2 => exact absurd rfl ht
    | d + 3 => cases hstack

/-- The outline has what the program's run needs. -/
theorem Outlined.allocated_le {tr : List Label} {stack : List ScriptedFrame}
    (hi : Outlined tr σ stack) : σ.allocated ≤ 3 := by
  obtain ⟨g, calls, h, hg, -⟩ := hi
  rw [hg.allocated]
  cases h with
  | construct hn | add hn | onInitialization hn | execute hn | run hn => cases hn <;> decide
  | _ => decide

theorem scriptedTrace_append {l : ScriptedLabel} : scriptedTrace (tr ++ [l]) =
    scriptedTrace tr ++ [(l.map ScriptedFrame.frame).map ServerFrame.toFrame] := by
  simp [scriptedTrace, List.map_append]

theorem Exec.outlined_main {l : ScriptedLabel} (hfile : cfg.startFile = "main")
    (h0 : cfg.scriptedInitial = some s₀) (h : (scripted cfg).Exec C s₀ tr s)
    (hm : ScriptedFrame.step cfg s.shared l.frame l.choice = some (l.op, gs))
    (hi : Outlined (scriptedTrace tr) s.shared (l.frame :: rest)) :
    Outlined (scriptedTrace (tr ++ [l])) (s.shared.apply l.op) (gs ++ rest) := by
  obtain ⟨h1, hserver⟩ := Exec.ofScripted h0 h
  have hsmall : s.shared.allocated ≤ 2 ^ 32 := hi.allocated_le.trans (by decide)
  rw [scriptedTrace_append]
  exact hi.step rfl rfl hfile (Exec.ids (Exec.ofServer h1 hserver)).1
    (fun r hr => Exec.found_added h1 hserver hsmall hr) hm

theorem ScriptedFrame.Tame.call {sf : ScriptedFrame} (h : sf.Tame)
    (hx : sf.frame.toFrame.jsCall = some x) : x = (1, "Test") := by
  obtain ⟨frame, code, service⟩ := sf
  cases frame with
  | main => cases h
  | frame f =>
    cases f with
    | executeJsFunction =>
      obtain ⟨rfl, rfl, -⟩ := h
      cases hx
      rfl
    | _ => cases hx

theorem Exec.outlined_other {l : ScriptedLabel} {stack : List ScriptedFrame}
    (h0 : cfg.scriptedInitial = some s₀) (h : (scripted cfg).Exec C s₀ tr s)
    (hmem : l.frame ∈ s.frames) (htame : l.frame.Tame)
    (hm : ScriptedFrame.step cfg s.shared l.frame l.choice = some (l.op, gs))
    (hi : Outlined (scriptedTrace tr) s.shared stack) :
    Outlined (scriptedTrace (tr ++ [l])) (s.shared.apply l.op) stack ∧ ∀ g ∈ gs, g.Tame := by
  obtain ⟨h1, hserver⟩ := Exec.ofScripted h0 h
  have hsys := Exec.ofServer h1 hserver
  have hsysmem : l.frame.frame.toFrame ∈ s.toServer.toSystem.frames := by
    rw [State.frames_map, State.frames_map]
    exact Multiset.mem_map_of_mem _ (Multiset.mem_map_of_mem _ hmem)
  have hcall : ∀ x, l.frame.frame.toFrame.jsCall = some x → x ∈ said (scriptedTrace tr) := by
    intro x hx
    obtain rfl := htame.call hx
    exact Exec.said_of_call hsys hsysmem hx
  have hstep := tame_step hi htame hm (fun r b hf => by
    rw [hf] at hsysmem
    obtain ⟨l', hl', hop⟩ := Exec.method_pushed (b := .service b) hsys hsysmem
    exact mem_said hl' hop rfl) hcall
  rw [scriptedTrace_append]
  exact ⟨hi.other hcall hstep, hstep.tame⟩

theorem Exec.outlined (hfile : cfg.startFile = "main") (h0 : cfg.scriptedInitial = some s₀)
    (h : (scripted cfg).Exec C s₀ tr s) :
    ∃ stack, Outlined (scriptedTrace tr) s.shared stack := by
  have hstart : ∃ stack, s₀.threads[cfg.threads + 2]? = some stack ∧
      Outlined (scriptedTrace []) s₀.shared stack := by
    obtain ⟨workers, hlength, rfl⟩ := Config.scripted_threads h0
    refine ⟨_, ?_, Outlined.initial⟩
    rw [← hlength]
    simp
  obtain ⟨stack, -, hi⟩ := (h.outline (A := fun tr σ stack => Outlined (scriptedTrace tr) σ stack)
    (B := ScriptedFrame.Tame) hstart (fun t ht stack hstack => scripted_initial_tame h0 ht hstack)
    (fun _ _ _ _ _ hr _ hm hi => Exec.outlined_main hfile h0 hr hm hi)
    fun _ _ _ _ _ hr hmem htame hm hi => Exec.outlined_other h0 hr hmem htame hm hi).1
  exact ⟨stack, hi⟩

/-- Of what the scripts can run, the program runs the three functions in this
order and each once at most. There are no services but the three, each under
the id that is its place in the order of creation, and every report of a
connection has its reply, made or on its way. -/
theorem scripted_calls (hfile : cfg.startFile = "main") (h0 : cfg.scriptedInitial = some s₀)
    (h : (scripted cfg).Exec Any s₀ tr s) :
    jsCalls (scriptedTrace tr) <+: [(0, "OnInit"), (1, "OnInit"), (1, "Test")] ∧
      said (scriptedTrace tr) <+: [(1, "Test")] ∧ s.shared.allocated ≤ 3 ∧
      (∀ r < s.shared.allocated,
        scriptedServices[r]? = some ((s.shared.services r).name, (s.shared.services r).cls)) ∧
      (∀ r ∈ added (scriptedTrace tr), (s.shared.services r).id = UInt32.ofNat r ∧
        s.shared.serviceMap.find (UInt32.ofNat r) = some r) ∧
      ∀ fd, ¬ s.shared.OpenAs fd .listen →
        (replies fd (scriptedTrace tr)).length +
            inFlight fd s.shared s.toServer.toSystem.frames =
          (reported fd (scriptedTrace tr)).length := by
  obtain ⟨stack, hi⟩ := Exec.outlined hfile h0 h
  obtain ⟨h1, hserver⟩ := Exec.ofScripted h0 h
  have hsmall := hi.allocated_le
  have h32 : s.shared.allocated ≤ 2 ^ 32 := hsmall.trans (by decide)
  obtain ⟨g, calls, houtline, hg, hran⟩ := hi
  have hids : ∀ r ∈ added (scriptedTrace tr),
      (s.shared.services r).id = UInt32.ofNat r := fun r hr => by
    rw [hg.added, List.mem_range] at hr
    exact hg.ids r hr
  refine ⟨?_, ?_, hsmall, fun r hr => hg.services r (hg.allocated ▸ hr),
    fun r hr => ⟨hids r hr, ?_⟩, fun fd hfd => ?_⟩
  · cases calls with
    | some ran =>
      rw [hran.1]
      cases houtline with
      | construct hn | add hn | onInitialization hn | execute hn | run hn => cases hn <;> decide
      | _ => decide
    | none =>
      obtain ⟨hsaid, n, hn⟩ := hran
      have hle : (jsCalls (scriptedTrace tr)).countP (· = (1, "Test")) + _ ≤
          (said (scriptedTrace tr)).countP (· = (1, "Test")) :=
        Exec.jsCalled (Exec.ofServer h1 hserver) (by decide) (by decide)
      rw [hsaid, hn, List.countP_append, List.countP_replicate] at hle
      have hn1 : n ≤ 1 := by simpa using (Nat.le_add_right _ _).trans hle
      rw [hn]
      rcases Nat.le_one_iff_eq_zero_or_eq_one.mp hn1 with rfl | rfl <;> decide
  · cases calls with
    | some ran => rw [hran.2]; exact List.nil_prefix
    | none => rw [hran.1]
  · rw [← hids r hr]
    exact Exec.found_added h1 hserver h32 hr
  · rw [← Exec.asked_reported h1 hserver]
    exact Exec.replied h1 hserver h32 hfd

/-- `main` has returned from `OnInit`, and a worker runs `Test` to its end. -/
def scriptedStart : List (Nat × Choice) :=
  [(6, .newScriptService "main" 0), (6, .jsExports ["OnInit"]), (6, .go), (6, .go), (6, .go),
    (6, .jsNewService "game_board/game_board" 0), (6, .jsExports ["OnInit", "Test"]), (6, .go),
    (6, .go), (6, .go), (6, .jsReturn), (6, .jsSend 1 "Test" "null"), (6, .go), (6, .go), (6, .go),
    (6, .go), (6, .go), (6, .jsReturn)] ++ steps 0 6 ++ [(0, .jsReturn)]

theorem scripted_calls_test : ∃ tr s,
    jsCalls (scriptedTrace tr) = [(0, "OnInit"), (1, "OnInit"), (1, "Test")] ∧
      (s : ScriptedState).shared.serviceMap.find 1 = some 1 := by
  have hrec : (Config.shipped.scriptedInitial.bind fun s₀ =>
      (scripted .shipped).record Any s₀ scriptedStart).any (fun r =>
        jsCalls (scriptedTrace r.1) = [(0, "OnInit"), (1, "OnInit"), (1, "Test")] ∧
          1 ∈ added (scriptedTrace r.1)) = true := by decide +kernel
  obtain ⟨⟨tr, s⟩, hbind, hP⟩ := (Option.any_eq_true _ _).mp hrec
  obtain ⟨s₀, h0, hrec⟩ := Option.bind_eq_some_iff.mp hbind
  obtain ⟨hcalls, hadded⟩ := of_decide_eq_true hP
  obtain ⟨-, -, -, -, hids, -⟩ := scripted_calls rfl h0 (Machine.exec_of_record hrec)
  exact ⟨tr, s, hcalls, (hids 1 hadded).2⟩

end XianNet
