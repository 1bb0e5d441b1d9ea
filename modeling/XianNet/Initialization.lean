import XianNet.Mailbox

/-!
# Initialization and handlers

`NewService` puts a service into the map and then runs its initialization, and
nothing keeps a sender who names its id from reaching it in between, so that a
worker may enter its isolate while `OnInit` runs there: `handled_during_init`.
What the order of `NewService` does guarantee is that no message was there
before: if nobody looks the service up too early, its handlers run after its
`OnInitialization` returned, whatever the other services do
(`init_before_handlers`).
-/

namespace XianNet

open Interleaving

variable {σ : Shared} {C : State → Label → Prop} {s : State}

/-- Part of the creation of `r`, up to the return of its `OnInitialization`. -/
def Frame.initializing (r : ServiceRef) (f : Frame) : Bool :=
  f.stage = some (r, .construct) || f.stage = some (r, .onInit)

/-- The id that `SendMessage` is about to look up. -/
def Frame.lookup : Frame → Option UInt32
  | .send (.find target _) => some target
  | _ => none

/-- No `SendMessage` finds the service `r` while it is still being initialized. -/
def FindsInitialized (r : ServiceRef) (s : State) (l : Label) : Prop :=
  ∀ target ∈ l.frame.lookup, s.shared.serviceMap.find target = some r →
    ∀ f ∈ s.frames, f.initializing r = false

-- over the option: the found instance would go through all of `UInt32`
instance (r : ServiceRef) (s : State) (l : Label) : Decidable (FindsInitialized r s l) :=
  Option.decidableForallMem _

-- ---------------------------------------------------------------------------
-- Where a phase begins
-- ---------------------------------------------------------------------------

theorem stage_refs (h : Frame.stage f = some (r, phase)) : r ∈ f.refs := by
  cases f with
  | send pc =>
    cases pc with
    | pushMessage => cases h; exact List.mem_singleton_self _
    | _ => cases h
  | addService | onInitialization | onExit | handler | processServiceMessage
  | processSocketAcceptMessage | processSocketRwMessage | executeJsFunction | script =>
    cases h; exact List.mem_singleton_self _
  | _ => cases h

/-- A handler starts with a lookup that finds the service, or with a message
that waits; the other phases start with the creation. -/
theorem stage_step (h : Frame.step σ f c = some (op, fs)) (hg : g ∈ fs)
    (hst : g.stage = some (r, phase)) :
    f.stage = some (r, phase) ∨ phase = .onExit ∨ (r = σ.allocated ∧ phase ≠ .handler) ∨
      (phase = .handler ∧ ((∃ target m, f = .send (.find target m) ∧
        σ.serviceMap.find target = some r) ∨ (σ.services r).messageQueue ≠ [])) := by
  cases f with
  | worker w pc =>
    cases WorkerPc.step_cases h with
    | popMessage _ hq =>
      rcases List.mem_pair.mp hg with rfl | rfl
      · cases hst; exact .inr (.inr (.inr ⟨rfl, .inr (by simp [hq])⟩))
      · cases hst
    | _ => cases List.mem_singleton.mp hg; cases hst
  | send pc =>
    cases SendPc.step_cases h with
    | found hr =>
      cases List.mem_singleton.mp hg
      cases hst
      exact .inr (.inr (.inr ⟨rfl, .inl ⟨_, _, rfl, hr⟩⟩))
    | unknown | lost => cases hg
    | wakeUp =>
      obtain ⟨p', -, rfl⟩ := List.mem_map.mp hg
      cases hst
    | _ => cases List.mem_singleton.mp hg; cases hst
  | _ =>
    rcases (step_other rfl h).stage g hg r phase hst with hf | hx | ⟨hr, hph, -⟩
    · exact .inl hf
    · exact .inr (.inl hx)
    · exact .inr (.inr (.inl ⟨hr, hph⟩))

-- ---------------------------------------------------------------------------
-- Nothing reaches a service that is being initialized
-- ---------------------------------------------------------------------------

def Untouched (σ : Shared) (F : Multiset Frame) (r : ServiceRef) : Prop :=
  (σ.services r).messageQueue = [] ∧ ∀ f ∈ F, Frame.stage f ≠ some (r, .handler)

def InitOk (r : ServiceRef) (σ : Shared) (F : Multiset Frame) : Prop :=
  (∃ f ∈ F, Frame.initializing r f) → Untouched σ F r

theorem RefsOk.untouched (hr : RefsOk σ F) : Untouched σ F σ.allocated := by
  refine ⟨by rw [hr.fresh _ (Nat.le_refl _)], ?_⟩
  intro f hf hst
  exact Nat.lt_irrefl _ (hr.frames f hf _ (stage_refs hst))

section
variable {f : Frame} {fs : List Frame} {R : Multiset Frame}

theorem InitOk.before (hi : InitOk r σ (f ::ₘ R)) (hr : RefsOk σ (f ::ₘ R))
    (h : Frame.step σ f c = some (op, fs)) (hg : g ∈ (fs : Multiset Frame) + R)
    (hinit : g.initializing r) :
    Untouched σ (f ::ₘ R) r ∧ ((∃ f' ∈ f ::ₘ R, f'.initializing r) ∨ r = σ.allocated) := by
  have hcome : (∃ f' ∈ f ::ₘ R, f'.initializing r) ∨ r = σ.allocated := by
    rcases Multiset.mem_add.mp hg with hg | hg
    · have hst : ∃ phase, g.stage = some (r, phase) ∧ (phase = .construct ∨ phase = .onInit) := by
        simp only [Frame.initializing, Bool.or_eq_true, decide_eq_true_eq] at hinit
        rcases hinit with hst | hst
        · exact ⟨_, hst, .inl rfl⟩
        · exact ⟨_, hst, .inr rfl⟩
      obtain ⟨phase, hst, hph⟩ := hst
      rcases stage_step h hg hst with hf | rfl | ⟨hr, -⟩ | ⟨rfl, -⟩
      · refine .inl ⟨f, Multiset.mem_cons_self f R, ?_⟩
        rcases hph with rfl | rfl <;> simp [Frame.initializing, hf]
      · rcases hph with hph | hph <;> cases hph
      · exact .inr hr
      · rcases hph with hph | hph <;> cases hph
    · exact .inl ⟨g, Multiset.mem_cons_of_mem hg, hinit⟩
  rcases hcome with hold | rfl
  · exact ⟨hi hold, .inl hold⟩
  · exact ⟨hr.untouched, .inr rfl⟩

theorem InitOk.step (hi : InitOk r σ (f ::ₘ R)) (hr : RefsOk σ (f ::ₘ R))
    (hc : ∀ target ∈ f.lookup, σ.serviceMap.find target = some r →
      ∀ g ∈ f ::ₘ R, g.initializing r = false)
    (h : Frame.step σ f c = some (op, fs)) : InitOk r (σ.apply op) ((fs : Multiset Frame) + R) := by
  rintro ⟨g, hg, hinit⟩
  obtain ⟨⟨hq, hno⟩, hcome⟩ := hi.before hr h hg hinit
  have hfree := hno f (Multiset.mem_cons_self f R)
  refine ⟨empty_step h hr (fun m heq => hfree (by rw [heq]; rfl)) hq, ?_⟩
  intro g' hg' hst
  rcases Multiset.mem_add.mp hg' with hg' | hg'
  · rcases stage_step h hg' hst with hf | hx | ⟨-, hph⟩ | ⟨-, ⟨target, m, rfl, hfind⟩ | hne⟩
    · exact hfree hf
    · cases hx
    · exact hph rfl
    · rcases hcome with ⟨f', hf', hinit'⟩ | rfl
      · rw [hc target rfl hfind f' hf'] at hinit'; cases hinit'
      · exact Nat.lt_irrefl _ (hr.map target _ hfind)
    · exact hne hq
  · exact hno g' (Multiset.mem_cons_of_mem hg') hst

end

theorem Reach.initOk (h : system.Reach (FindsInitialized r) (initial n p k) s) :
    InitOk r s.shared s.frames := by
  refine h.invariant ?_ fun s l fs R hr hc hF hm hi => hi.step (hF ▸ Reach.refsOk hr) (hF ▸ hc) hm
  rintro ⟨f, hf, hinit⟩
  rcases mem_initial_frames hf with ⟨i, -, rfl⟩ | rfl | rfl | rfl <;> cases hinit

/-- A second thread sends to the service while its `OnInit` runs. -/
theorem handled_during_init : ∃ s, system.Reach Any (initial 1 (fun i => 1 <<< i) 2) s ∧
    ∃ m, .handler 0 m ∈ s.frames ∧ .script 0 .onInit ∈ s.frames := by
  have h : ((system.run Any (initial 1 (fun i => 1 <<< i) 2)
      ((3, .newScriptService "main" 0) :: (3, .jsExports ["OnInit"]) :: steps 3 3 ++
        sends 4 0 5 ++ steps 0 3)).any fun s =>
        .handler 0 (scriptMessage {} "") ∈ s.frames ∧ .script 0 .onInit ∈ s.frames) = true := by
    decide +kernel
  obtain ⟨s, hs, hh, hi⟩ := Machine.exists_of_run h
  exact ⟨s, hs, _, hh, hi⟩

/-- Without a lookup of the service that comes too early, its initialization
comes first. -/
theorem init_before_handlers (h : system.Reach (FindsInitialized r) (initial n p k) s)
    (hm : .handler r m ∈ s.frames) : ∀ f ∈ s.frames, f.initializing r = false := by
  intro f hf
  by_contra hinit
  exact (Reach.initOk h ⟨f, hf, by simpa using hinit⟩).2 _ hm rfl

/-- Service 0 sends to itself in its `OnInit` and is handled meanwhile. Service 1,
which it created, was initialized before. -/
theorem init_before_handlers_sent :
    ∃ s, system.Reach (FindsInitialized 1) (initial 2 (fun i => 1 <<< i) 1) s ∧
      .handler 0 (scriptMessage {} "") ∈ s.frames ∧ .script 0 .onInit ∈ s.frames ∧
      .handler 1 (scriptMessage {} "") ∈ s.frames ∧ ∀ f ∈ s.frames, f.initializing 1 = false := by
  have h : ((system.run (FindsInitialized 1) (initial 2 (fun i => 1 <<< i) 1)
      ((4, .newScriptService "main" 0) :: (4, .jsExports ["OnInit"]) :: steps 4 3 ++
        (4, .jsSend 0 "" "") :: steps 4 5 ++
        (4, .jsNewService "game" 0) :: (4, .jsExports []) :: steps 4 3 ++
        (4, .jsSend 1 "" "") :: steps 4 5 ++ steps 0 3 ++ steps 1 3)).any fun s =>
        .handler 0 (scriptMessage {} "") ∈ s.frames ∧ .script 0 .onInit ∈ s.frames ∧
        .handler 1 (scriptMessage {} "") ∈ s.frames) = true := by
    decide +kernel
  obtain ⟨s, hs, hm₀, hinit, hm₁⟩ := Machine.exists_of_run h
  exact ⟨s, hs, hm₀, hinit, hm₁, init_before_handlers hs hm₁⟩

end XianNet
