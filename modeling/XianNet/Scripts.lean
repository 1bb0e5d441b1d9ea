import XianNet.Server

/-!
# The program with its scripts

`service/` has two scripts: `main` creates a `game_board/game_board` and sends
it `Test`, and `game_board/game_board` only logs. With them for what the engine
runs, the program has nothing left to be filled in but the clients, the
scheduler and the results of system calls.
-/

namespace XianNet

open Interleaving

/-- A statement of a script. The calls that log are left out. -/
inductive Statement
  /-- `const service = XianNet.newService(name);` -/
  | newService (name : String)
  /-- `XianNet.send(service, functionName, null);` -/
  | send (functionName : String)
  deriving DecidableEq, Repr

/-- The functions that the file of the name exports. Other files do not exist,
and `GetSourceText` gives no text for them. -/
def exportsOf (name : String) : List (String × List Statement) :=
  if name = "main" then [("OnInit", [.newService "game_board/game_board", .send "Test"])]
  else if name = "game_board/game_board" then [("OnInit", []), ("Test", [])]
  else []

/-- A frame of the program. Where it is script code: the statements still to
come, and the service that the function has created. -/
structure ScriptedFrame where
  frame : ServerFrame
  code : List Statement := []
  service : Option ServiceRef := none
  deriving DecidableEq, Repr

def ScriptedFrame.of (code : List Statement) (frame : ServerFrame) : ScriptedFrame := { frame, code }

/-- The function that `ExecuteJsFunction` calls. -/
def ServerFrame.body (σ : Shared) : ServerFrame → List Statement
  | .frame (.executeJsFunction r name _ _) => ((exportsOf (σ.services r).name).lookup name).getD []
  | _ => []

/-- One step of the script code of `r`. Its file is a module: it exports its
functions and does nothing else when it is evaluated. -/
def scriptedStep (σ : Shared) (r : ServiceRef) (phase : Phase) (service : Option ServiceRef)
    (code : List Statement) (c : Choice) : Option (Op × List ScriptedFrame) :=
  match code, c with
  | .newService name :: code, .jsNewService name' uninitialized =>
    if name' = name then
      some (.newService (newScript (ScriptService.toString name) uninitialized),
        (newScriptServiceFrames σ.allocated).map (fun f => .of [] (.frame f)) ++
          [⟨.frame (.script r phase), code, some σ.allocated⟩])
    else none
  | .send functionName :: code, .jsSend target functionName' content =>
    match service with
    | none => none
    | some created =>
      if target = (σ.services created).id ∧ functionName' = functionName ∧ content = "null" then
        some (.silent,
          [.of [] (.frame (.send (.find target
            (scriptMessage (σ.services r) (ScriptService.toString functionName))))),
            ⟨.frame (.script r phase), code, service⟩])
      else none
  | [], .jsExports names =>
    if phase = .construct ∧ names = (exportsOf (σ.services r).name).map (·.1) then
      some (.setFunctions r (names.map ScriptService.toString), [])
    else none
  | [], .jsReturn => if phase = .construct then none else some (.silent, [])
  | _, _ => none

def ScriptedFrame.step (cfg : Config) (σ : Shared) (f : ScriptedFrame) (c : Choice) :
    Option (Op × List ScriptedFrame) :=
  match f.frame with
  | .frame (.script r phase) => scriptedStep σ r phase f.service f.code c
  | g => (ServerFrame.step cfg σ g c).map fun x => (x.1, x.2.map (.of (g.body σ)))

def scripted (cfg : Config) : Machine Shared ScriptedFrame Choice Op :=
  ⟨ScriptedFrame.step cfg, Shared.apply⟩

abbrev ScriptedState := Interleaving.State Shared ScriptedFrame
abbrev ScriptedLabel := Interleaving.Label ScriptedFrame Choice Op

def Config.scriptedInitial (cfg : Config) : Option ScriptedState := cfg.initial.map (·.map (.of []))

/-- The run of the program that a run with the scripts is. -/
abbrev toServer (tr : List ScriptedLabel) : List ServerLabel := tr.map (·.map ScriptedFrame.frame)

abbrev ScriptedState.toServer (s : ScriptedState) : ServerState := s.map ScriptedFrame.frame

variable {cfg : Config} {σ : Shared} {s₀ s : ScriptedState} {tr : List ScriptedLabel}

-- ---------------------------------------------------------------------------
-- The scripts are scripts
-- ---------------------------------------------------------------------------

/-- What a script does next. -/
inductive ScriptedStep (σ : Shared) (r : ServiceRef) (phase : Phase) :
    Option ServiceRef → List Statement → Choice → Op → List ScriptedFrame → Prop
  | newService : ScriptedStep σ r phase service (.newService name :: code)
      (.jsNewService name uninitialized)
      (.newService (newScript (ScriptService.toString name) uninitialized))
      ((newScriptServiceFrames σ.allocated).map (fun f => .of [] (.frame f)) ++
        [⟨.frame (.script r phase), code, some σ.allocated⟩])
  | send : ScriptedStep σ r phase (some created) (.send functionName :: code)
      (.jsSend (σ.services created).id functionName "null") .silent
      [.of [] (.frame (.send (.find (σ.services created).id
        (scriptMessage (σ.services r) (ScriptService.toString functionName))))),
        ⟨.frame (.script r phase), code, some created⟩]
  | exports : phase = .construct →
      ScriptedStep σ r phase service [] (.jsExports ((exportsOf (σ.services r).name).map (·.1)))
        (.setFunctions r (((exportsOf (σ.services r).name).map (·.1)).map ScriptService.toString)) []
  | ret : phase ≠ .construct → ScriptedStep σ r phase service [] .jsReturn .silent []

theorem scriptedStep_cases (h : scriptedStep σ r phase service code c = some (op, fs)) :
    ScriptedStep σ r phase service code c op fs := by
  unfold scriptedStep at h
  split at h
  · split at h
    · rename_i hname; cases h; subst hname; exact .newService
    · cases h
  · split at h
    · cases h
    · split at h
      · rename_i hargs
        obtain ⟨rfl, rfl, rfl⟩ := hargs
        cases h
        exact .send
      · cases h
  · split at h
    · rename_i hargs
      obtain ⟨hphase, rfl⟩ := hargs
      cases h
      exact .exports hphase
    · cases h
  · split at h
    · cases h
    · rename_i hphase; cases h; exact .ret hphase
  · cases h

theorem frame_of (code : List Statement) (fs : List ServerFrame) :
    (fs.map (ScriptedFrame.of code)).map ScriptedFrame.frame = fs := by
  rw [List.map_map]
  exact List.map_id fs

theorem server_script (hc : c.isForeign = false) (h : scriptStep σ r phase c = some (op, fs)) :
    ServerFrame.step cfg σ (.frame (.script r phase)) c = some (op, fs.map .frame) := by
  have hstep : Frame.step σ (.script r phase) c = some (op, fs) := h
  rw [ServerFrame.step, hc, if_neg Bool.false_ne_true, hstep, Option.map_some]
  exact nofun

/-- A step of script code is one that any script could take. -/
theorem ScriptedStep.server (cfg : Config) (h : ScriptedStep σ r phase service code c op fs) :
    ServerFrame.step cfg σ (.frame (.script r phase)) c = some (op, fs.map ScriptedFrame.frame) := by
  cases h with
  | newService =>
    rw [server_script rfl rfl, List.map_append, List.map_append, List.map_map]
    rfl
  | send =>
    rw [server_script rfl rfl]
    rfl
  | exports hphase =>
    have hstep : scriptStep σ r phase (.jsExports ((exportsOf (σ.services r).name).map (·.1))) = _ :=
      if_pos hphase
    rw [server_script rfl hstep]
    rfl
  | ret hphase =>
    have hstep : scriptStep σ r phase .jsReturn = _ := if_neg hphase
    rw [server_script rfl hstep]
    rfl

/-- A step of another frame is one of the program without scripts. -/
theorem scripted_other {f : ScriptedFrame} (h : ScriptedFrame.step cfg σ f c = some (op, fs))
    (hf : ∀ r phase, f.frame ≠ .frame (.script r phase)) :
    ∃ gs, ServerFrame.step cfg σ f.frame c = some (op, gs) ∧
      fs = gs.map (.of (f.frame.body σ)) := by
  unfold ScriptedFrame.step at h
  split at h
  · rename_i r phase heq
    exact absurd heq (hf r phase)
  · obtain ⟨⟨op', gs⟩, hstep, heq⟩ := Option.map_eq_some_iff.mp h
    cases heq
    exact ⟨gs, hstep, rfl⟩

theorem scripted_translates (cfg : Config) :
    (scripted cfg).Translates (server cfg) ScriptedFrame.frame := by
  refine ⟨rfl, fun σ f c op fs h => ?_⟩
  by_cases hf : ∃ r phase, f.frame = .frame (.script r phase)
  · obtain ⟨r, phase, hf⟩ := hf
    have hrun : scriptedStep σ r phase f.service f.code c = some (op, fs) := by
      rw [← h]
      show _ = ScriptedFrame.step cfg σ f c
      rw [ScriptedFrame.step, hf]
    rw [hf]
    exact (scriptedStep_cases hrun).server cfg
  · obtain ⟨gs, hstep, rfl⟩ := scripted_other h fun r phase heq => hf ⟨r, phase, heq⟩
    rw [frame_of]
    exact hstep

theorem Config.toServer_initial (h : cfg.scriptedInitial = some s₀) :
    ∃ s₁, cfg.initial = some s₁ ∧ s₁ = s₀.toServer := by
  obtain ⟨s₁, h1, rfl⟩ := Option.map_eq_some_iff.mp h
  refine ⟨s₁, h1, ?_⟩
  obtain ⟨σ, threads⟩ := s₁
  simp only [State.map, List.map_map]
  congr
  refine (List.map_id threads).symm.trans (List.map_congr_left fun stack _ => ?_)
  exact (frame_of [] stack).symm

theorem Exec.ofScripted (h0 : cfg.scriptedInitial = some s₀) (h : (scripted cfg).Exec C s₀ tr s) :
    cfg.initial = some s₀.toServer ∧ (server cfg).Exec Any s₀.toServer (toServer tr) s.toServer := by
  obtain ⟨s₁, h1, rfl⟩ := Config.toServer_initial h0
  exact ⟨h1, h.map (scripted_translates cfg) fun _ _ _ _ _ => trivial⟩

end XianNet
