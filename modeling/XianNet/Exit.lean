import XianNet.Mailbox
import XianNet.Overtaking
import XianNet.ServiceTable

/-!
# After `KillService`

`CheckAndPutGlobal` is the one place that looks at the exit mark. The rest of
the batch that is being processed, a copy of the service in the global queue
and a sender that has found the service before do not, and each leads to
another handler (`handled_after_exit`). Where none of them is left when
`KillService` returns, the service is silent for good (`silent_after_exit`).
-/

namespace XianNet

open Interleaving

variable {σ : Shared} {C : State → Label → Prop} {s s' : State} {tr : List Label} {r : ServiceRef}

-- ---------------------------------------------------------------------------
-- A call of `KillService`
-- ---------------------------------------------------------------------------

/-- A call of `KillService` for the service has just returned: it set the exit
mark, and its thread took the one step that is left after that. -/
def Killed (tr : List Label) (r : ServiceRef) : Prop :=
  ∃ tr₁ l₁ tr₂ l₂, tr = tr₁ ++ l₁ :: (tr₂ ++ [l₂]) ∧ l₁.op = .setExisting r ∧
    (∀ l ∈ tr₂, l.thread ≠ l₁.thread) ∧ l₂.thread = l₁.thread

/-- Where the exit mark of a service is about to be set, its id is erased next. -/
def KillOk (tr : List Label) (σ : Shared) (_ : Nat) (stack : List Frame) : Prop :=
  ∀ r rest, .kill (.setExisting r) :: rest <:+ stack →
    r ∈ added tr ∧ ∃ rest', rest = .kill (.erase (σ.services r).id) :: rest'

theorem suffix_of_notMem {α : Type} {x : α} {fs l rest : List α} (hx : x ∉ fs)
    (h : x :: l <:+ fs ++ rest) : x :: l <:+ rest := by
  induction fs with
  | nil => exact h
  | cons f fs ih =>
    rcases List.suffix_cons_iff.mp h with heq | h
    · exact absurd (List.cons.inj heq).1 fun hxf => hx (by simp [hxf])
    · exact ih (fun hmem => hx (List.mem_cons_of_mem _ hmem)) h

theorem setExisting_new (h : Frame.step σ f c = some (op, fs))
    (hf : .kill (.setExisting r) ∈ fs) : ∃ target, f = .kill (.find target) ∧
      σ.serviceMap.find target = some r ∧
      fs = [.onExit r, .kill (.setExisting r), .kill (.erase target)] := by
  have hsame := (routine_step h _ hf).2.resolve_right nofun
  cases f with
  | kill pc =>
    cases KillPc.step_cases (c := c) (Option.some.inj h) with
    | killFound hfind =>
      simp only [List.mem_cons, reduceCtorEq, Frame.kill.injEq, KillPc.setExisting.injEq,
        List.not_mem_nil, or_false, false_or] at hf
      subst hf
      exact ⟨_, rfl, hfind, rfl⟩
    | _ => cases hf
  | _ => cases hsame

theorem setExisting_op (h : Frame.step σ f c = some (.setExisting r, fs)) :
    f = .kill (.setExisting r) ∧ fs = [] := by
  cases Frame.step_inv h with
  | service hs => cases hs; exact ⟨rfl, rfl⟩
  | worker hs =>
    cases hs with
    | block hb => cases hb
  | send hs =>
    cases hs with
    | wakeUp hw => cases hw
  | network hs | socket hs | accept hs | listen hs | close hs | gateway hs | modify hs => cases hs

theorem KillOk.kept (hi : KillOk tr σ t stack)
    (hid : ∀ r ∈ added tr, ((σ.apply l.op).services r).id = (σ.services r).id) :
    KillOk (tr ++ [l]) (σ.apply l.op) t stack := by
  intro r rest hsuf
  obtain ⟨hadded, rest', rfl⟩ := hi r rest hsuf
  exact ⟨mem_added_append hadded, rest', by rw [hid r hadded]⟩

theorem Exec.killOk (h : system.Exec C (initial n p k) tr s) :
    ∀ t stack, s.threads[t]? = some stack → KillOk tr s.shared t stack := by
  refine h.stacks (I := KillOk) ?_ ?_ ?_
  · intro t stack ht r rest hsuf
    have hmem : .kill (.setExisting r) ∈ stack := hsuf.subset List.mem_cons_self
    rcases mem_initial_frames (State.mem_frames.mpr ⟨t, stack, ht, hmem⟩) with
      ⟨i, -, heq⟩ | heq | heq | heq <;> cases heq
  · intro tr s l fs rest hr hc htop hm hi
    have hf : l.frame ∈ s.frames := State.mem_frames.mpr ⟨_, _, htop, List.mem_cons_self⟩
    have hkept := hi.kept (l := l) fun r hadded => Exec.id_step hr hadded hf hm
    intro r rest' hsuf
    by_cases hmem : .kill (.setExisting r) ∈ fs
    · obtain ⟨target, hframe, hfind, rfl⟩ := setExisting_new hm hmem
      obtain ⟨hid, hadded⟩ := Exec.mapped hr target r hfind
      simp only [List.cons_append, List.nil_append, List.suffix_cons_iff, List.cons.injEq,
        reduceCtorEq, Frame.kill.injEq, false_and, false_or, true_and] at hsuf
      rcases hsuf with ⟨rfl, rfl⟩ | hsuf
      · have hid' := Exec.id_step hr hadded hf hm
        exact ⟨mem_added_append hadded, rest, by rw [← hid, ← hid']; rfl⟩
      · exact hkept r rest' (hsuf.trans (List.suffix_cons ..))
    · exact hkept r rest' ((suffix_of_notMem hmem hsuf).trans (List.suffix_cons ..))
  · intro tr s l s' t stack hr hc hs hne ht hi
    obtain ⟨fs, R, hm, hF, -, hsh⟩ := hs.frames
    have hf : l.frame ∈ s.frames := by rw [hF]; exact Multiset.mem_cons_self _ R
    rw [hsh]
    exact hi.kept fun r hadded => Exec.id_step hr hadded hf hm

theorem Exec.id_stays (h : system.Exec C (initial n p k) tr s) (hr : r ∈ added tr)
    (h' : system.Exec C s tr' s') : (s'.shared.services r).id = (s.shared.services r).id := by
  induction h' with
  | refl => rfl
  | @step tr' s₁ l s₂ h' _ hs ih =>
    obtain ⟨fs, R, hm, hF, -, hsh⟩ := hs.frames
    have hf : l.frame ∈ s₁.frames := by rw [hF]; exact Multiset.mem_cons_self _ R
    rw [hsh, ← ih]
    exact Exec.id_step (h.trans h') (mem_added_append hr) hf hm

theorem existing_apply {op : Op} (hr : r < σ.allocated) (he : (σ.services r).isExisting = true) :
    ((σ.apply op).services r).isExisting = true := by
  cases op with
  | newService => simpa [Shared.apply, Nat.ne_of_lt hr] using he
  | pushMessage | popMessage | raiseFlag | clearFlag | setFunctions | setServiceId | setExisting =>
    simp only [Shared.apply, services_updateService]
    split
    · simp_all
    · exact he
  | addService =>
    simp only [Shared.apply, Shared.addService, services_updateService]
    split
    · simp_all
    · exact he
  | _ => exact he

theorem existing_exec (h : system.Exec C s tr s') (hr : r < s.shared.allocated)
    (he : (s.shared.services r).isExisting = true) :
    (s'.shared.services r).isExisting = true := by
  have hboth : r < s'.shared.allocated ∧ (s'.shared.services r).isExisting = true := by
    induction h with
    | refl => exact ⟨hr, he⟩
    | step _ _ hs ih =>
      obtain ⟨fs, R, -, -, -, hsh⟩ := hs.frames
      rw [hsh]
      exact ⟨ih.1.trans_le (allocated_le_apply ..), existing_apply ih.1 ih.2⟩
  exact hboth.2

/-- The mark is set, and no `Find` returns the service any more. -/
structure Gone (tr : List Label) (σ : Shared) (r : ServiceRef) : Prop where
  added : r ∈ added tr
  existing : (σ.services r).isExisting = true
  unfound : ∀ target, σ.serviceMap.find target ≠ some r

theorem Gone.step (hi : Gone tr s.shared r) (h : system.Exec C (initial n p k) tr s)
    (hs : system.Step s l s') : Gone (tr ++ [l]) s'.shared r := by
  obtain ⟨fs, R, hm, hF, -, hsh⟩ := hs.frames
  rw [hsh]
  refine ⟨mem_added_append hi.added, existing_apply (Exec.added_lt h hi.added) hi.existing, ?_⟩
  intro target hfind
  rcases find_serviceMap_id hfind with hfind | ⟨hop, -⟩
  · exact hi.unfound target hfind
  · rw [op_of_added hop] at hm
    refine Exec.not_adding h hi.added ?_
    rw [hF, ← addService_op hm]
    exact Multiset.mem_cons_self _ R

theorem Killed.gone (h : system.Exec C (initial n p k) tr s) (hk : Killed tr r) :
    Gone tr s.shared r := by
  obtain ⟨tr₁, l₁, tr₂, l₂, rfl, hop, hothers, hthread⟩ := hk
  obtain ⟨s₁, h₁, hrest⟩ := h.split
  obtain ⟨s₂, hc₁, hs₁, hrest⟩ := hrest.cons
  obtain ⟨s₃, h₂, hc₂, hs₂⟩ := hrest.snoc
  -- the thread is at its `Erase` when the mark is set, and still there later
  obtain ⟨rest, fs, htop, hm, hnext, hsh₁⟩ := hs₁.moves
  rw [hop] at hm
  obtain ⟨hframe, rfl⟩ := setExisting_op hm
  rw [hframe] at htop
  obtain ⟨hadded, rest', rfl⟩ := Exec.killOk h₁ _ _ htop r rest (List.suffix_refl _)
  obtain ⟨rest₂, fs₂, htop₂, hm₂, -, hsh₂⟩ := hs₂.moves
  rw [hthread, h₂.stays hothers, hnext] at htop₂
  obtain ⟨hf₂, -⟩ := List.cons.inj (Option.some.inj htop₂)
  have herase : l₂.op = .eraseService (s₁.shared.services r).id := by
    rw [← hf₂] at hm₂
    exact (Prod.mk.inj (Option.some.inj hm₂)).1.symm
  have hlt := Exec.added_lt h₁ hadded
  have h₁₃ : system.Exec C s₁ (l₁ :: tr₂) s₃ := (Machine.Exec.single hc₁ hs₁).trans h₂
  refine ⟨mem_added_append hadded, ?_, ?_⟩
  · have hlt₂ : r < s₂.shared.allocated := by rw [hsh₁, hop]; exact hlt
    refine existing_exec (h₂.trans (.single hc₂ hs₂)) hlt₂ ?_
    rw [hsh₁, hop]
    simp [system, Shared.apply]
  · intro target hfind
    rw [hsh₂, herase] at hfind
    simp only [system, Shared.apply, RwlockUnorderedMap.find_erase] at hfind
    split at hfind
    · cases hfind
    · rename_i hne
      have hid := (Exec.mapped (h₁.trans h₁₃) target r hfind).1
      rw [Exec.id_stays h₁ hadded h₁₃] at hid
      exact hne hid.symm

-- ---------------------------------------------------------------------------
-- Silence
-- ---------------------------------------------------------------------------

/-- The frame is past its lookup of the service or its test of the mark: it
brings a message, a handler or the service itself. -/
def Frame.rouses (r : ServiceRef) : Frame → Bool
  | .send (.pushMessage r' _) | .handler r' _ => r' = r
  | .send (.checkAndPush p) | .worker _ (.checkAndPush p) => p.ref = r
  | _ => false

/-- The frame takes a message of the service if it has one, or puts it back. -/
def Frame.visits (r : ServiceRef) : Frame → Bool
  | .worker _ (.clearFlag r') | .worker _ (.checkEmpty r') => r' = r
  | .worker w (.processMessages r' i) => r' = r ∧ (i : Int) < w.processingNum
  | _ => false

theorem pushGlobal_op (h : Frame.step σ f c = some (.pushGlobal r, fs)) :
    f = .send (.checkAndPush (.push r)) ∨ ∃ w, f = .worker w (.checkAndPush (.push r)) := by
  rcases scheduling_op h rfl with ⟨w, pc, rfl, hs⟩ | ⟨pc, rfl, hs⟩
  · cases hs with
    | push => exact .inr ⟨w, rfl⟩
    | block hb => cases hb.isSleep
  · cases hs with
    | push => exact .inl rfl
    | wakeUp hw => cases hw.isSleep

theorem queued_origin (h : Frame.step σ f c = some (op, fs))
    (hr : r ∈ (σ.apply op).globalServiceQueue) : r ∈ σ.globalServiceQueue ∨ op = .pushGlobal r := by
  have hmem : r ∈ σ.globalServiceQueue ++ op.pushedGlobal := by
    rw [globalServiceQueue_step h]
    exact List.mem_append_right _ hr
  refine (List.mem_append.mp hmem).imp_right fun hr => ?_
  cases op with
  | pushGlobal => rw [List.mem_singleton.mp hr]
  | _ => cases hr

/-- Nothing that is under way leads to the service, and either it has no
message, or it is not queued and no worker takes another one. -/
structure Quiet (σ : Shared) (F : Multiset Frame) (r : ServiceRef) : Prop where
  roused : ∀ f ∈ F, f.rouses r = false
  visited : (σ.services r).messageQueue = [] ∨
    (r ∉ σ.globalServiceQueue ∧ ∀ f ∈ F, f.visits r = false)

/-- Of the functions of a service, only the worker calls handlers, and only
`SendMessage` and the worker go on to the queues. -/
theorem rouses_call (hf : f.isScheduling = false) (h : Frame.step σ f c = some (op, fs))
    (hg : g ∈ fs) : g.rouses r = false ∧ g.visits r = false := by
  obtain ⟨hcall, hentry⟩ := routine_step h g hg
  cases g with
  | worker | handler =>
    cases f <;> simp [Frame.routine, Routine.calls, Frame.isScheduling] at hcall hf
  | send pc =>
    cases pc with
    | find => exact ⟨rfl, rfl⟩
    | _ => cases f <;> simp [Frame.routine, Frame.isEntry, Frame.isScheduling] at hentry hf
  | _ => exact ⟨rfl, rfl⟩

theorem rouses_new (h : Frame.step σ f c = some (op, fs)) (hf : f.rouses r = false)
    (hfind : ∀ target, σ.serviceMap.find target ≠ some r)
    (hvisit : (σ.services r).messageQueue = [] ∨ f.visits r = false) :
    ∀ g ∈ fs, g.rouses r = false := by
  intro g hg
  cases f with
  | worker w pc =>
    cases WorkerPc.step_cases h with
    | @popMessage r' m messages i hi hq =>
      rcases List.mem_pair.mp hg with rfl | rfl
      · simp only [Frame.rouses, decide_eq_false_iff_not]
        rintro rfl
        rcases hvisit with hempty | hvisit
        · rw [hempty] at hq; cases hq
        · simp [Frame.visits, hi] at hvisit
      · rfl
    | @notEmpty r' hq =>
      rw [List.mem_singleton.mp hg]
      refine decide_eq_false ?_
      rintro (rfl : r' = r)
      rcases hvisit with hempty | hvisit
      · exact hq hempty
      · simp [Frame.visits] at hvisit
    | won => rw [List.mem_singleton.mp hg]; exact hf
    | @block p op next hp => rw [List.mem_singleton.mp hg]; cases next <;> rfl
    | _ => rw [List.mem_singleton.mp hg]; rfl
  | send pc =>
    cases SendPc.step_cases h with
    | @found target r' m hr' =>
      rw [List.mem_singleton.mp hg]
      simp only [Frame.rouses, decide_eq_false_iff_not]
      rintro rfl
      exact hfind target hr'
    | pushMessage | won => rw [List.mem_singleton.mp hg]; exact hf
    | push => rw [List.mem_singleton.mp hg]; rfl
    | unknown | lost => cases hg
    | wakeUp =>
      obtain ⟨p', -, rfl⟩ := List.mem_map.mp hg
      rfl
  | _ => exact (rouses_call rfl h hg).1

theorem visits_new (h : Frame.step σ f c = some (op, fs)) (he : (σ.services r).isExisting = true)
    (hqueue : r ∉ σ.globalServiceQueue) (hf : f.visits r = false) :
    ∀ g ∈ fs, g.visits r = false := by
  intro g hg
  cases f with
  | worker w pc =>
    cases WorkerPc.step_cases h with
    | @pop r' queue hq =>
      rw [List.mem_singleton.mp hg]
      simp only [Frame.visits, decide_eq_false_iff_not]
      rintro rfl
      exact hqueue (by simp [hq])
    | clearFlag =>
      rw [List.mem_singleton.mp hg]
      simp only [Frame.visits, decide_eq_false_iff_not] at hf ⊢
      exact fun hr => hf hr.1
    | @popNoMessage r' i hi =>
      rw [List.mem_singleton.mp hg]
      simp only [Frame.visits, decide_eq_false_iff_not] at hf ⊢
      exact fun hr => hf ⟨hr.1, hi⟩
    | @popMessage r' m messages i hi =>
      rcases List.mem_pair.mp hg with rfl | rfl
      · rfl
      · simp only [Frame.visits, decide_eq_false_iff_not] at hf ⊢
        exact fun hr => hf ⟨hr.1, hi⟩
    | @notExiting r' hnot =>
      rw [List.mem_singleton.mp hg]
      simp only [Frame.visits, decide_eq_false_iff_not]
      rintro rfl
      rw [he] at hnot
      cases hnot
    | @block p op next hp => rw [List.mem_singleton.mp hg]; cases next <;> rfl
    | _ => rw [List.mem_singleton.mp hg]; rfl
  | send pc =>
    cases SendPc.step_cases h with
    | unknown | lost => cases hg
    | wakeUp =>
      obtain ⟨p', -, rfl⟩ := List.mem_map.mp hg
      rfl
    | _ => rw [List.mem_singleton.mp hg]; rfl
  | _ => exact (rouses_call rfl h hg).2

/-- Nothing under way starts to lead to the service. -/
theorem Quiet.step (hi : Quiet σ (f ::ₘ R) r) (hr : RefsOk σ (f ::ₘ R))
    (h : Frame.step σ f c = some (op, fs)) (he : (σ.services r).isExisting = true)
    (hfind : ∀ target, σ.serviceMap.find target ≠ some r) :
    Quiet (σ.apply op) ((fs : Multiset Frame) + R) r := by
  have hf := hi.roused f (Multiset.mem_cons_self f R)
  have hvisit := hi.visited.imp_right fun hv => hv.2 f (Multiset.mem_cons_self f R)
  constructor
  · intro g hg
    rcases Multiset.mem_add.mp hg with hg | hg
    · exact rouses_new h hf hfind hvisit g hg
    · exact hi.roused g (Multiset.mem_cons_of_mem hg)
  · rcases hi.visited with hempty | ⟨hqueue, hvisits⟩
    · refine .inl (empty_step h hr ?_ hempty)
      rintro m rfl
      simp [Frame.rouses] at hf
    · refine .inr ⟨?_, ?_⟩
      · intro hmem
        rcases queued_origin h hmem with hmem | hop
        · exact hqueue hmem
        · rw [hop] at h
          rcases pushGlobal_op h with rfl | ⟨w, rfl⟩ <;> simp [Frame.rouses, PushPc.ref] at hf
      · intro g hg
        rcases Multiset.mem_add.mp hg with hg | hg
        · exact visits_new h he hqueue (hvisits f (Multiset.mem_cons_self f R)) g hg
        · exact hvisits g (Multiset.mem_cons_of_mem hg)

/-- Nobody runs a handler of the service or queues it in this step. -/
theorem Quiet.silent (hi : Quiet σ F r) (hf : f ∈ F) (h : Frame.step σ f c = some (op, fs)) :
    (∀ m, f ≠ .handler r m) ∧ op ≠ .pushGlobal r := by
  have hrouses := hi.roused f hf
  constructor
  · rintro m rfl
    simp [Frame.rouses] at hrouses
  · rintro rfl
    rcases pushGlobal_op h with rfl | ⟨w, rfl⟩ <;> simp [Frame.rouses, PushPc.ref] at hrouses

theorem Quiet.exec (h : system.Exec C (initial n p k) tr s) (hg : Gone tr s.shared r)
    (hq : Quiet s.shared s.frames r) (h' : system.Exec C s tr' s') :
    Gone (tr ++ tr') s'.shared r ∧ Quiet s'.shared s'.frames r ∧
      ∀ l ∈ tr', (∀ m, l.frame ≠ .handler r m) ∧ l.op ≠ .pushGlobal r := by
  induction h' with
  | refl => exact ⟨by simpa using hg, hq, by simp⟩
  | @step tr' s₁ l s₂ h' _ hs ih =>
    obtain ⟨hg₁, hq₁, hsilent⟩ := ih
    obtain ⟨fs, R, hm, hF, hF', hsh⟩ := hs.frames
    have hrefs := Reach.refsOk ⟨_, h.trans h'⟩
    rw [hF] at hq₁ hrefs
    refine ⟨?_, ?_, ?_⟩
    · rw [← List.append_assoc]
      exact hg₁.step (h.trans h') hs
    · rw [hF', hsh]
      exact hq₁.step hrefs hm hg₁.existing hg₁.unfound
    · intro l' hl'
      rcases List.mem_append.mp hl' with hl' | hl'
      · exact hsilent l' hl'
      · rw [List.mem_singleton.mp hl']
        exact hq₁.silent (Multiset.mem_cons_self _ R) hm

/-- A killed service that nothing under way leads to stays silent. -/
theorem silent_after_exit (h : system.Exec Any (initial n p k) tr s) (hk : Killed tr r)
    (hq : Quiet s.shared s.frames r) (hrun : system.Exec Any s tr' s') :
    (∀ l ∈ tr', ∀ m, l.frame ≠ .handler r m) ∧ ∀ l ∈ tr', l.op ≠ .pushGlobal r := by
  obtain ⟨-, -, hsilent⟩ := hq.exec h (hk.gone h) hrun
  exact ⟨fun l hl => (hsilent l hl).1, fun l hl => (hsilent l hl).2⟩

theorem setExisting_of_frame (hs : system.Step s l s') (hf : l.frame = .kill (.setExisting r)) :
    l.op = .setExisting r := by
  obtain ⟨rest, fs, -, hm, -, -⟩ := hs.moves
  rw [hf] at hm
  exact (Prod.mk.inj (Option.some.inj hm)).1.symm

/-- Thread 4 creates a script service with the handler `stop` and sends it `n + 1`
messages; worker 1 handles the first, which kills the service, up to the mark. -/
def stops (n : Nat) : List (Nat × Choice) :=
  [(4, .newScriptService "main" 0), (4, .jsExports ["stop"])] ++ steps 4 3 ++
    (4, .sendMessage 0 (scriptMessage {} "stop")) :: steps 4 5 ++
    (List.replicate n ((4, .sendMessage 0 (scriptMessage {} "stop")) :: steps 4 3)).flatten ++
    steps 1 6 ++ (1, .jsKill) :: steps 1 3

/-- One message was sent, so the queue is empty when the service is killed. -/
theorem silent_after_exit_empty : ∃ tr s tr' s',
    system.Exec Any (initial 2 (fun i => 1 <<< i) 1) tr s ∧ Killed tr 0 ∧
      Quiet s.shared s.frames 0 ∧ system.Exec Any s tr' s' ∧ s'.frames.countP (·.visits 0) = 0 ∧
      (∀ l ∈ tr', ∀ m, l.frame ≠ .handler 0 m) ∧ ∀ l ∈ tr', l.op ≠ .pushGlobal 0 := by
  have h : ((system.record Any (initial 2 (fun i => 1 <<< i) 1) (stops 0)).any fun r =>
      (system.next r.2 1 .go).any (fun r₁ => r₁.1.frame = .kill (.setExisting 0) ∧
        (system.next r₁.2 1 .go).any (fun r₂ => (∀ f ∈ r₂.2.frames, f.rouses 0 = false) ∧
          (r₂.2.shared.services 0).messageQueue = [] ∧
          (system.record Any r₂.2 ((1, .jsReturn) :: steps 1 3)).any (fun r₃ =>
            r₃.2.frames.countP (·.visits 0) = 0) = true) = true) = true) = true := by
    decide +kernel
  obtain ⟨tr₁, s₁, h₁, h⟩ := Machine.exists_of_record h
  obtain ⟨l₁, s₂, hs₁, ht₁, -, hframe, h⟩ := Machine.exists_of_next h
  obtain ⟨l₂, s₃, hs₂, ht₂, -, hroused, hempty, h⟩ := Machine.exists_of_next h
  obtain ⟨tr', s', h', hvisits⟩ := Machine.exists_of_record h
  have hrun := Machine.Exec.step (.step h₁ trivial hs₁) trivial hs₂
  have hk : Killed (tr₁ ++ [l₁] ++ [l₂]) 0 :=
    ⟨tr₁, l₁, [], l₂, by simp, setExisting_of_frame hs₁ hframe, by simp, by rw [ht₁, ht₂]⟩
  have hq : Quiet s₃.shared s₃.frames 0 := ⟨hroused, .inl hempty⟩
  exact ⟨_, s₃, tr', s', hrun, hk, hq, h', hvisits, silent_after_exit hrun hk hq h'⟩

/-- With a second message behind it, the same batch starts its handler after
`KillService` returned. -/
theorem handled_after_exit : ∃ tr s tr' s' l m,
    system.Exec Any (initial 2 (fun i => 1 <<< i) 1) tr s ∧ Killed tr 0 ∧
      system.Exec Any s tr' s' ∧ l ∈ tr' ∧ l.frame = .handler 0 m := by
  have h : ((system.record Any (initial 2 (fun i => 1 <<< i) 1) (stops 1)).any fun r =>
      (system.next r.2 1 .go).any (fun r₁ => r₁.1.frame = .kill (.setExisting 0) ∧
        (system.next r₁.2 1 .go).any (fun r₂ =>
          (system.record Any r₂.2 ((1, .jsReturn) :: steps 1 2)).any (fun r₃ =>
            r₃.1.any (·.frame = .handler 0 (scriptMessage {} "stop")) = true) = true) = true) =
              true) = true := by
    decide +kernel
  obtain ⟨tr₁, s₁, h₁, h⟩ := Machine.exists_of_record h
  obtain ⟨l₁, s₂, hs₁, ht₁, -, hframe, h⟩ := Machine.exists_of_next h
  obtain ⟨l₂, s₃, hs₂, ht₂, -, h⟩ := Machine.exists_of_next h
  obtain ⟨tr', s', h', h⟩ := Machine.exists_of_record h
  obtain ⟨l, hl, hhandler⟩ := List.any_eq_true.mp h
  exact ⟨tr₁ ++ [l₁] ++ [l₂], s₃, tr', s', l, _, .step (.step h₁ trivial hs₁) trivial hs₂,
    ⟨tr₁, l₁, [], l₂, by simp, setExisting_of_frame hs₁ hframe, by simp, by rw [ht₁, ht₂]⟩, h', hl,
    of_decide_eq_true hhandler⟩

end XianNet
