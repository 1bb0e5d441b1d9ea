import XianNet.Close
import XianNet.Reuse
import XianNet.Routing

/-!
# Runs of the program alone

`CloseConnection`, `KillService` and `ModifyEvent` are there to be called, but
nothing in the program calls them, and only scripts and the socket worker call
`SendMessage`. A run without such calls is `Native`. What goes wrong around
closed connections and killed services does not happen in it: a number stays
with its connection, and everything on its way to a number reaches it
(`Exec.contained`).
-/

namespace XianNet

open Interleaving

variable {σ : Shared} {s : State} {tr : List Label}

/-- A call that no code of the program makes. -/
def Choice.isForeign : Choice → Bool
  | .sendMessage .. | .closeConnection _ | .modifyEvent .. | .jsKill => true
  | _ => false

def Native (_ : State) (l : Label) : Prop := l.choice.isForeign = false

instance (s : State) (l : Label) : Decidable (Native s l) := by
  unfold Native; infer_instance

theorem sent_of_native {c : Choice} (hc : c.isForeign = false) : c.sent = none := by
  cases c <;> first | rfl | cases hc

-- ---------------------------------------------------------------------------
-- Functions that nobody is in
-- ---------------------------------------------------------------------------

def Frame.isForeign : Frame → Bool
  | .kill _ | .onExit _ | .close _ | .modifyEvent .. => true
  | _ => false

theorem native_step (h : Frame.step σ f c = some (op, fs)) (hc : c.isForeign = false)
    (hf : f.isForeign = false) : ∀ g ∈ fs, g.isForeign = false := by
  intro g hg
  have hcall := (routine_step h g hg).1
  cases f with
  | caller =>
    cases callerStep_cases h with
    | sendMessage | closeConnection | modifyEvent => cases hc
    | listen => rcases List.mem_pair.mp hg with rfl | rfl <;> rfl
    | newScriptService | newGatewayService =>
      simp only [newScriptServiceFrames, newServiceFrames, List.cons_append, List.nil_append,
        List.mem_cons, List.not_mem_nil, or_false] at hg
      rcases hg with rfl | rfl | rfl | rfl <;> rfl
  | script =>
    cases scriptStep_cases h with
    | jsKill => cases hc
    | jsSend => rcases List.mem_pair.mp hg with rfl | rfl <;> rfl
    | jsNewService =>
      simp only [newScriptServiceFrames, List.cons_append, List.nil_append, List.mem_cons,
        List.not_mem_nil, or_false] at hg
      rcases hg with rfl | rfl | rfl | rfl <;> rfl
    | jsSetServiceId => rw [List.mem_singleton.mp hg]; rfl
    | jsExports | jsReturn => cases hg
  | kill | onExit | close | modifyEvent => cases hf
  | _ =>
    cases g with
    | kill | onExit | close | modifyEvent => simp [Frame.routine, Routine.calls] at hcall
    | _ => rfl

theorem Reach.frames_native (h : system.Reach Native (initial n p k) s) :
    ∀ f ∈ s.frames, f.isForeign = false := by
  refine h.invariant (I := fun _ F => ∀ f ∈ F, Frame.isForeign f = false) ?_ ?_
  · intro f hf
    rcases mem_initial_frames hf with ⟨i, -, rfl⟩ | rfl | rfl | rfl <;> rfl
  · intro s l fs R _ hc _ hm hi g hg
    rcases Multiset.mem_add.mp hg with hg | hg
    · exact native_step hm hc (hi _ (Multiset.mem_cons_self _ R)) g hg
    · exact hi g (Multiset.mem_cons_of_mem hg)

/-- What the foreign functions do to the shared state. -/
def Op.isForeign : Op → Bool
  | .setExisting _ | .eraseService _ | .eraseConnection _ | .close _ | .epollMod .. | .epollDel _
  | .callClose .. => true
  | _ => false

theorem op_native (h : Frame.step σ f c = some (op, fs)) (hc : c.isForeign = false)
    (hf : f.isForeign = false) : op.isForeign = false := by
  cases Frame.step_inv h with
  | worker hs =>
    cases hs with
    | block hb => cases hb <;> rfl
    | _ => rfl
  | send hs =>
    cases hs with
    | wakeUp hw => cases hw <;> rfl
    | _ => rfl
  | service hs => cases hs <;> first | rfl | cases hc | cases hf
  | close | modify => cases hf
  | network hs | socket hs | accept hs | listen hs | gateway hs => cases hs <;> rfl

theorem Exec.ops_native (h : system.Exec Native (initial n p k) tr s) :
    ∀ l ∈ tr, l.op.isForeign = false := by
  induction h with
  | refl => simp
  | @step tr s₁ l s₂ hr hc hs ih =>
    intro l' hl'
    rcases List.mem_append.mp hl' with hl' | hl'
    · exact ih l' hl'
    · obtain ⟨fs, R, hm, hF, -, -⟩ := hs.frames
      have hf := Reach.frames_native ⟨tr, hr⟩ l.frame (hF ▸ Multiset.mem_cons_self _ R)
      rw [List.mem_singleton.mp hl']
      exact op_native hm hc hf

-- ---------------------------------------------------------------------------
-- Numbers stay open
-- ---------------------------------------------------------------------------

theorem Native.noClose (h : system.Exec Native (initial n p k) tr s) :
    system.Exec NoClose (initial n p k) tr s := by
  refine h.strengthen fun pre s l s' hr hc hs k c hop => ?_
  obtain ⟨fs, R, hm, hF, -, -⟩ := hs.frames
  have hf := Reach.frames_native ⟨pre, hr⟩ l.frame (hF ▸ Multiset.mem_cons_self _ R)
  have hnot := op_native hm hc hf
  rw [hop] at hnot
  cases hnot

/-- A number that something is on its way to is open. -/
structure NumbersOpen (σ : Shared) (F : Multiset Frame) : Prop where
  frames : ∀ f ∈ F, ∀ fd ∈ f.numbers, (σ.kernel.descriptors fd).isSome
  queues : ∀ r, ∀ m ∈ (σ.services r).messageQueue, ∀ x ∈ m.report,
    (σ.kernel.descriptors x.1).isSome

/-- The numbers that a step goes on with are those of reports or of the
gateway's handler. -/
theorem numbers_origin (h : Frame.step σ f c = some (op, fs)) (hg : g ∈ fs) (hfd : fd ∈ g.numbers) :
    fd ∈ f.numbers ∨ ∃ x ∈ g.reports, x.1 = fd := by
  by_cases hgate : g.routine = .gateway
  · obtain ⟨pc, rfl⟩ : ∃ pc, g = .gateway pc := by
      cases g <;> first | exact ⟨_, rfl⟩ | cases hgate
    obtain rfl := List.mem_singleton.mp hfd
    by_cases hf : f.routine = .gateway
    · obtain ⟨pc₀, rfl⟩ : ∃ pc, f = .gateway pc := by
        cases f <;> first | exact ⟨_, rfl⟩ | cases hf
      obtain ⟨pc', heq, hsame⟩ := gateway_goes_on h _ hg
      cases heq
      exact .inl (List.mem_singleton.mpr hsame)
    · rcases gateway_starts h hf with hnone | ⟨r, b, rfl, hall⟩
      · exact absurd hgate (hnone _ hg)
      · obtain ⟨pc', heq, hsame⟩ := hall _ hg
        cases heq
        exact .inl (List.mem_singleton.mpr hsame)
  · refine .inr (List.mem_map.mp ?_)
    cases g with
    | gateway => exact absurd rfl hgate
    | _ => exact hfd

theorem NumbersOpen.step (hi : NumbersOpen σ (f ::ₘ R)) (hr : RefsOk σ (f ::ₘ R))
    (hk : KernelOk σ.kernel)
    (hkey : ∀ key c, σ.connectionMap.find key = some c → key = c.fd.toUInt32)
    (h : Frame.step σ f c = some (op, fs)) (hcl : f.closing = none)
    (hsent : c.sent.bind (·.report) = none) :
    NumbersOpen (σ.apply op) ((fs : Multiset Frame) + R) := by
  have hgrow : ∀ fd, (σ.kernel.descriptors fd).isSome →
      ((σ.apply op).kernel.descriptors fd).isSome := by
    intro fd hfd
    obtain ⟨x, hx⟩ := Option.isSome_iff_exists.mp hfd
    rw [(grows_step h hcl).descriptors fd x hx, Option.isSome_some]
  have hf := hi.frames f (Multiset.mem_cons_self f R)
  constructor
  · intro g hg fd hfd
    refine hgrow fd ?_
    rcases Multiset.mem_add.mp hg with hg | hg
    · rcases numbers_origin h hg hfd with hfd | ⟨x, hx, rfl⟩
      · exact hf fd hfd
      · rcases report_origin h hkey hg hx with hx | ⟨r, m, hm, hx⟩ | ⟨e, -, hrep, rfl⟩ | hx
        · exact hf _ (mem_numbers hx)
        · exact hi.queues r m hm x hx
        · rw [(hk.of_reports hrep).1, Option.isSome_some]
        · rw [hsent] at hx; cases hx
    · exact hi.frames g (Multiset.mem_cons_of_mem hg) fd hfd
  · intro r m hm x hx
    refine hgrow _ ?_
    rcases queue_origin h hr hm with hm | hm
    · exact hi.queues r m hm x hx
    · refine hf _ (mem_numbers ?_)
      rw [reports_of_message hm]
      exact Option.mem_toList.mpr hx

theorem Exec.numbersOpen (h : system.Exec Native (initial n p k) tr s) :
    NumbersOpen s.shared s.frames := by
  refine h.invariant (I := fun _ => NumbersOpen) ⟨?_, ?_⟩ ?_
  · intro f hf fd hfd
    rcases mem_initial_frames hf with ⟨i, -, rfl⟩ | rfl | rfl | rfl <;> cases hfd
  · intro r m hm; cases hm
  · intro tr s l fs R hr hc hF hm hi
    have hcl := Reach.frame_closing ⟨tr, Native.noClose hr⟩ hF
    refine hi.step (hF ▸ Reach.refsOk ⟨tr, hr⟩) (Reach.kernelOk ⟨tr, hr⟩) (Reach.keyed ⟨tr, hr⟩) hm
      hcl ?_
    rw [sent_of_native hc, Option.bind_none]

theorem NumbersOpen.unawaited (hi : NumbersOpen s.shared s.frames)
    (hfd : s.shared.kernel.descriptors fd = none) : Unawaited s fd := by
  constructor
  · intro f hf hmem
    have hsome := hi.frames f hf fd hmem
    rw [hfd] at hsome
    cases hsome
  · intro r _ m hm hreport
    obtain ⟨x, hx, rfl⟩ := Option.map_eq_some_iff.mp hreport
    have hsome := hi.queues r m hm x hx
    rw [hfd] at hsome
    cases hsome

-- ---------------------------------------------------------------------------
-- What does not happen
-- ---------------------------------------------------------------------------

/-- The step closes and kills nothing, asks for no `EPOLLOUT`, and hands out no
number that anything is on its way to. -/
structure Contained (s : State) (l : Label) : Prop where
  native : Native s l
  noClose : NoClose s l
  settled : Settled s l
  ops : l.op.isForeign = false

theorem Exec.contained (h : system.Exec Native (initial n p k) tr s) :
    system.Exec Contained (initial n p k) tr s := by
  have hops := Exec.ops_native h
  refine (h.of_forall hops).strengthen fun pre s l s' hr hc hs => ?_
  have hr : system.Exec Native (initial n p k) pre s := hr.mono fun _ _ h => h.1
  obtain ⟨fs, R, hm, -, -, -⟩ := hs.frames
  refine ⟨hc.1, fun k c hop => ?_, ⟨fun x hx => ?_, ?_⟩, hc.2⟩
  · have hnot := hc.2
    rw [hop] at hnot
    cases hnot
  · have hopens : l.op.opens = some (x.1, x.2) := hx
    have hfree := free_of_opens hm hopens
    exact (Exec.numbersOpen hr).unawaited (Kernel.free_iff.mp hfree).2
  · rw [sent_of_native hc.1, Option.bind_none]

end XianNet
