import XianNet.References

/-!
# Descriptor numbers

An open number names one file, a registered file is open, and only a
registered file is marked, in every run. A file keeps its number and its kind
for good; the number may go to another file.
-/

namespace XianNet

open Interleaving

variable {σ : Shared} {C : State → Label → Prop} {s : State}

-- ---------------------------------------------------------------------------
-- Updates
-- ---------------------------------------------------------------------------

namespace Kernel

variable {k : Kernel}

theorem free_iff : k.free fd ↔ 0 ≤ fd ∧ k.descriptors fd = none := by
  simp [free]

theorem files_updateFile :
    (k.updateFile f g).files f' = if f' = f then g (k.files f) else k.files f' := by
  by_cases h : f' = f
  · subst h; simp [updateFile]
  · simp [updateFile, h]

@[simp] theorem descriptors_updateFile : (k.updateFile f g).descriptors = k.descriptors := rfl

@[simp] theorem allocated_updateFile : (k.updateFile f g).allocated = k.allocated := rfl

theorem files_openFile :
    (k.openFile file).files f = if f = k.allocated then file else k.files f := by
  by_cases h : f = k.allocated
  · subst h; simp [openFile]
  · simp [openFile, h]

theorem descriptors_openFile : (k.openFile file).descriptors fd =
    if fd = file.fd then some k.allocated else k.descriptors fd := by
  by_cases h : fd = file.fd
  · subst h; simp [openFile]
  · simp [openFile, h]

@[simp] theorem allocated_openFile : (k.openFile file).allocated = k.allocated + 1 := rfl

theorem descriptors_close : (k.close fd).descriptors fd' =
    if fd' = fd then none else k.descriptors fd' := by
  unfold close
  cases hf : k.descriptors fd with
  | none => by_cases h : fd' = fd <;> simp [h, hf]
  | some f => by_cases h : fd' = fd <;> simp [h]

theorem files_close : (k.close fd).files f =
    if k.descriptors fd = some f then { k.files f with interest := none, ready := false }
    else k.files f := by
  unfold close
  cases hf : k.descriptors fd with
  | none => simp
  | some f' =>
    simp only [files_updateFile, Option.some.injEq]
    by_cases h : f = f'
    · subst h; simp
    · simp [h, Ne.symm h]

@[simp] theorem allocated_close : (k.close fd).allocated = k.allocated := by
  unfold close; cases k.descriptors fd <;> rfl

theorem files_epollWait : (k.epollWait events).files f =
    if events.any (·.file == f) then { k.files f with ready := false } else k.files f := rfl

@[simp] theorem descriptors_epollWait : (k.epollWait events).descriptors = k.descriptors := rfl

@[simp] theorem allocated_epollWait : (k.epollWait events).allocated = k.allocated := rfl

end Kernel

-- ---------------------------------------------------------------------------
-- One file
-- ---------------------------------------------------------------------------

/-- What an operation makes of the file `x`. -/
inductive FileStep (σ : Shared) (x : FileRef) : Op → File → Prop
  | same : FileStep σ x op (σ.kernel.files x)
  | opened : x = σ.kernel.allocated → FileStep σ x (.openSocket fd) { fd, isClient := false }
  | accepted : x = σ.kernel.allocated →
      FileStep σ x (.accept l fd received) { fd, isClient := true, received }
  | taken : FileStep σ x (.accept x fd received)
      { σ.kernel.files x with backlog := (σ.kernel.files x).backlog - 1 }
  | bound : FileStep σ x (.bind x port) { σ.kernel.files x with port := some port }
  | listening : FileStep σ x (.listen x) { σ.kernel.files x with listening := true }
  | closed : σ.kernel.descriptors fd = some x → FileStep σ x (.close fd)
      { σ.kernel.files x with interest := none, ready := false }
  | added : FileStep σ x (.epollAdd x)
      { σ.kernel.files x with interest := some ⟨false⟩, ready := (σ.kernel.files x).readable }
  | modified : FileStep σ x (.epollMod x epollOut)
      { σ.kernel.files x with
        interest := some ⟨epollOut⟩
        ready := (σ.kernel.files x).ready || (σ.kernel.files x).readable || epollOut }
  | removed : FileStep σ x (.epollDel x) { σ.kernel.files x with interest := none, ready := false }
  | reported : e ∈ events → e.file = x →
      FileStep σ x (.epollWait events) { σ.kernel.files x with ready := false }
  | read : FileStep σ x (.read x n)
      { σ.kernel.files x with received := (σ.kernel.files x).received.drop n }
  | written : FileStep σ x (.write x bytes)
      { σ.kernel.files x with sent := (σ.kernel.files x).sent ++ bytes }
  | connected : FileStep σ x (.connect x)
      (Kernel.notify { σ.kernel.files x with backlog := (σ.kernel.files x).backlog + 1 })
  | delivered : FileStep σ x (.deliver x bytes)
      (Kernel.notify { σ.kernel.files x with received := (σ.kernel.files x).received ++ bytes })
  | finished : FileStep σ x (.finish x) (Kernel.notify { σ.kernel.files x with ended := true })
  | drained : FileStep σ x (.drain x)
      { σ.kernel.files x with
        ready := (σ.kernel.files x).ready || (σ.kernel.files x).interest == some ⟨true⟩ }

theorem file_step (σ : Shared) (op : Op) (x : FileRef) :
    ∃ file, (σ.apply op).kernel.files x = file ∧ FileStep σ x op file := by
  refine ⟨_, rfl, ?_⟩
  cases op with
  | openSocket fd =>
    simp only [Shared.apply, Kernel.files_openFile]
    split
    · rename_i hx; exact .opened hx
    · exact .same
  | accept l fd received =>
    simp only [Shared.apply, Kernel.accept, Kernel.files_openFile, Kernel.files_updateFile]
    split
    · rename_i hx; exact .accepted hx
    · split
      · rename_i hx; subst hx; exact .taken
      · exact .same
  | close fd =>
    simp only [Shared.apply, Kernel.files_close]
    split
    · rename_i hd; exact .closed hd
    · exact .same
  | epollWait events =>
    simp only [Shared.apply, Kernel.files_epollWait]
    split
    · rename_i hany
      obtain ⟨e, he, hfile⟩ := List.any_eq_true.mp hany
      exact .reported he (by simpa using hfile)
    · exact .same
  | bind f | listen f | epollAdd f | epollMod f | epollDel f | read f | write f | connect f
  | deliver f | finish f | drain f =>
    simp only [Shared.apply, Shared.updateFile, Kernel.epollAdd, Kernel.epollMod, Kernel.epollDel,
      Kernel.connect, Kernel.deliver, Kernel.finish, Kernel.drain, Kernel.files_updateFile]
    split
    · rename_i hx; subst hx; constructor
    · exact .same
  | _ => exact .same

-- ---------------------------------------------------------------------------
-- The kernel's books
-- ---------------------------------------------------------------------------

section
variable {k : Kernel}

structure KernelOk (k : Kernel) : Prop where
  number : ∀ fd f, k.descriptors fd = some f → f < k.allocated ∧ (k.files f).fd = fd ∧ 0 ≤ fd
  registered : ∀ f, (k.files f).interest.isSome → k.descriptors (k.files f).fd = some f
  marked : ∀ f, (k.files f).ready → (k.files f).interest.isSome
  client : ∀ f, (k.files f).isClient → f < k.allocated

/-- A file is overwritten under its number. -/
theorem KernelOk.write (h : KernelOk k) (hfd : file.fd = (k.files f).fd)
    (hclient : file.isClient = (k.files f).isClient)
    (hreg : file.interest.isSome → k.descriptors (k.files f).fd = some f)
    (hmark : file.ready → file.interest.isSome) : KernelOk (k.updateFile f fun _ => file) := by
  refine ⟨fun fd f' hf' => ?_, fun f' => ?_, fun f' => ?_, fun f' => ?_⟩ <;>
    rw [Kernel.files_updateFile]
  · obtain ⟨hlt, hnum, hpos⟩ := h.number fd f' hf'
    refine ⟨hlt, ?_, hpos⟩
    split
    · rename_i hf; rw [hfd, ← hf, hnum]
    · exact hnum
  · split
    · rename_i hf; rw [hfd, hf]; exact hreg
    · exact h.registered f'
  · split
    · exact hmark
    · exact h.marked f'
  · split
    · rename_i hf; rw [hclient, hf]; exact h.client f
    · exact h.client f'

/-- Its registration stays as it was. -/
theorem KernelOk.writeData (h : KernelOk k) (hfd : file.fd = (k.files f).fd)
    (hclient : file.isClient = (k.files f).isClient) (hint : file.interest = (k.files f).interest)
    (hmark : file.ready → (k.files f).interest.isSome) :
    KernelOk (k.updateFile f fun _ => file) :=
  h.write hfd hclient (hint ▸ h.registered f) (hint ▸ hmark)

theorem notify_marked (h : KernelOk k) (hready : file.ready = (k.files f).ready)
    (hint : file.interest = (k.files f).interest) :
    (Kernel.notify file).ready → (k.files f).interest.isSome := by
  simp only [Kernel.notify, Bool.or_eq_true, hready, hint]
  rintro (hr | hi)
  · exact h.marked f hr
  · exact hi

theorem KernelOk.openFile (h : KernelOk k) (hfree : k.free file.fd) (hint : file.interest = none)
    (hready : file.ready = false) : KernelOk (k.openFile file) := by
  obtain ⟨hpos, hnone⟩ := Kernel.free_iff.mp hfree
  have hold : ∀ fd f, k.descriptors fd = some f → fd ≠ file.fd ∧ f ≠ k.allocated := fun fd f hf => by
    refine ⟨?_, Nat.ne_of_lt (h.number fd f hf).1⟩
    intro hfd
    rw [hfd, hnone] at hf; cases hf
  refine ⟨?_, ?_, ?_, ?_⟩
  · intro fd f hf
    rw [Kernel.descriptors_openFile] at hf
    rw [Kernel.files_openFile]
    split at hf
    · rename_i hfd; cases hf; simp [hfd, hpos]
    · obtain ⟨hlt, hnum, hge⟩ := h.number fd f hf
      rw [if_neg (hold fd f hf).2]
      exact ⟨Nat.lt_succ_of_lt hlt, hnum, hge⟩
  · intro f hi
    rw [Kernel.files_openFile] at hi ⊢
    split at hi
    · rw [hint] at hi; cases hi
    · rename_i hf
      have hreg := h.registered f hi
      rw [if_neg hf, Kernel.descriptors_openFile, if_neg (hold _ f hreg).1]
      exact hreg
  · intro f hr
    rw [Kernel.files_openFile] at hr ⊢
    split at hr
    · rw [hready] at hr; cases hr
    · rename_i hf; rw [if_neg hf]; exact h.marked f hr
  · intro f hc
    rw [Kernel.files_openFile] at hc
    split at hc
    · rename_i hf; rw [hf]; exact Nat.lt_succ_self _
    · exact Nat.lt_succ_of_lt (h.client f hc)

theorem KernelOk.close (h : KernelOk k) : KernelOk (k.close fd) := by
  refine ⟨fun fd' f hf => ?_, fun f => ?_, fun f => ?_, fun f => ?_⟩ <;>
    rw [Kernel.files_close]
  · rw [Kernel.descriptors_close] at hf
    split at hf
    · cases hf
    · obtain ⟨hlt, hnum, hpos⟩ := h.number fd' f hf
      rw [Kernel.allocated_close]
      refine ⟨hlt, ?_, hpos⟩
      split <;> exact hnum
  · split
    · intro hi; cases hi
    · rename_i hne
      intro hi
      have hreg := h.registered f hi
      rw [Kernel.descriptors_close, if_neg, hreg]
      rintro rfl
      exact hne hreg
  · split
    · intro hr; cases hr
    · exact h.marked f
  · rw [Kernel.allocated_close]
    split <;> exact h.client f

theorem KernelOk.epollWait (h : KernelOk k) : KernelOk (k.epollWait events) := by
  refine ⟨fun fd f hf => ?_, fun f => ?_, fun f => ?_, fun f => ?_⟩ <;>
    rw [Kernel.files_epollWait] <;> split
  · exact h.number fd f hf
  · exact h.number fd f hf
  · exact h.registered f
  · exact h.registered f
  · intro hr; cases hr
  · exact h.marked f
  · exact h.client f
  · exact h.client f

/-- What a system call needs to succeed. -/
def Op.enabled (k : Kernel) : Op → Prop
  | .openSocket fd | .accept _ fd _ => k.free fd
  | .epollAdd f | .epollMod f _ => ∃ fd, k.descriptors fd = some f
  | _ => True

theorem KernelOk.open (h : KernelOk k) (hf : ∃ fd, k.descriptors fd = some f) :
    k.descriptors (k.files f).fd = some f := by
  obtain ⟨fd, hf⟩ := hf
  rwa [(h.number fd f hf).2.1]

end

theorem KernelOk.apply {op : Op} (h : KernelOk σ.kernel) (hop : op.enabled σ.kernel) :
    KernelOk (σ.apply op).kernel := by
  cases op with
  | openSocket fd => exact h.openFile hop rfl rfl
  | accept l fd received =>
    refine KernelOk.openFile (k := σ.kernel.updateFile l _) ?_ hop rfl rfl
    exact h.writeData rfl rfl rfl (h.marked l)
  | bind f | listen f | read f | write f => exact h.writeData rfl rfl rfl (h.marked f)
  | connect | deliver | finish => exact h.writeData rfl rfl rfl (notify_marked h rfl rfl)
  | drain f =>
    refine h.writeData rfl rfl rfl fun hready => ?_
    rcases Bool.or_eq_true_iff.mp hready with hr | hi
    · exact h.marked f hr
    · rw [beq_iff_eq.mp hi]; rfl
  | close => exact h.close
  | epollAdd | epollMod => exact h.write rfl rfl (fun _ => h.open hop) fun _ => rfl
  | epollDel => exact h.write rfl rfl (fun hi => by cases hi) fun hr => by cases hr
  | epollWait => exact h.epollWait
  | _ => exact h

-- ---------------------------------------------------------------------------
-- Steps that leave the network alone
-- ---------------------------------------------------------------------------

/-- The operations on files, descriptors and connections. -/
def Op.isNetwork : Op → Bool
  | .emplaceConnection .. | .eraseConnection _ | .openSocket _ | .bind .. | .listen _ | .accept ..
  | .close _ | .epollAdd _ | .epollMod .. | .epollDel _ | .epollWait _ | .read .. | .write ..
  | .connect _ | .deliver .. | .finish _ | .drain _ => true
  | _ => false

theorem kernel_apply {op : Op} (h : op.isNetwork = false) : (σ.apply op).kernel = σ.kernel := by
  cases op <;> first | rfl | cases h

theorem enabled_of_offline {k : Kernel} {op : Op} (h : op.isNetwork = false) : op.enabled k := by
  cases op <;> trivial

/-- A frame that opened a number and has not yet put it into the map. -/
def Frame.pending : Frame → Option (Int32 × ConnectionType)
  | .accept (.addConnection fd _) => if 0 ≤ fd then some (fd, .client) else none
  | .listen (.bind fd _ _) | .listen (.listen fd _) | .listen (.addConnection fd _) =>
    some (fd, .listen)
  | _ => none

/-- The number that `AddEvent` is about to register. -/
def Frame.adding : Frame → Option Int32
  | .accept (.addEvent fd _) | .listen (.addEvent fd) => some fd
  | _ => none

/-- The number that a call of `CloseConnection` is for. -/
def Frame.closing : Frame → Option UInt32
  | .close (.erase fd) | .close (.close fd _) | .close (.removeEvent fd) => some fd
  | _ => none

def Frame.isNetwork : Frame → Bool
  | .network | .socket _ | .accept _ | .listen _ | .close _ | .gateway _ | .modifyEvent .. => true
  | _ => false

/-- What a step of any other frame may do to the network. -/
structure OfflineStep (σ : Shared) (op : Op) (fs : List Frame) : Prop where
  outside : op.isNetwork = false
  opening : ∀ g ∈ fs, g.pending = none ∧ g.adding = none
  closing : ∀ g ∈ fs, ∀ fd, g.closing = some fd →
    g = .close (.erase fd) ∧ op = .callClose fd (σ.connectionMap.find fd)

section
attribute [local simp] Frame.pending Frame.adding Frame.closing

theorem step_offline (hf : f.isNetwork = false) (h : Frame.step σ f c = some (op, fs)) :
    OfflineStep σ op fs := by
  cases f with
  | network | socket | accept | listen | close | gateway | modifyEvent => cases hf
  | caller =>
    simp only [Frame.step, callerStep] at h
    split at h <;> cases h <;> refine ⟨rfl, ?_, ?_⟩ <;>
      simp [newScriptServiceFrames, newServiceFrames]
  | worker w pc =>
    cases WorkerPc.step_cases h with
    | block hp =>
      refine ⟨?_, by simp, by simp⟩
      cases hp <;> rfl
    | _ => exact ⟨rfl, by simp, by simp⟩
  | send pc =>
    cases SendPc.step_cases h with
    | wakeUp hp =>
      refine ⟨?_, by simp, by simp⟩
      cases hp <;> rfl
    | _ => exact ⟨rfl, by simp, by simp⟩
  | addService => cases h; exact ⟨rfl, by simp, by simp⟩
  | onInitialization | onExit | executeJsFunction =>
    simp only [Frame.step, onInitializationFrames, onExitFrames] at h
    cases h
    split <;> exact ⟨rfl, by simp, by simp⟩
  | kill pc =>
    cases pc with
    | find id =>
      simp only [Frame.step, KillPc.step] at h
      split at h <;> cases h <;> exact ⟨rfl, by simp, by simp⟩
    | setExisting | erase => cases h; exact ⟨rfl, by simp, by simp⟩
  | handler r m =>
    obtain ⟨fs', hfs, heq⟩ := Option.map_eq_some_iff.mp h
    cases heq
    obtain ⟨g, rfl, hmethod, -⟩ := handlerFrames_method hfs
    cases g <;> cases hmethod <;> exact ⟨rfl, by simp, by simp⟩
  | processServiceMessage =>
    cases h
    refine ⟨rfl, fun g hg => ?_, fun g hg fd hcl => ?_⟩ <;>
      obtain rfl := processServiceMessageFrames_calls hg
    · exact ⟨rfl, rfl⟩
    · cases hcl
  | processSocketAcceptMessage =>
    cases h
    exact ⟨rfl, by simp [processSocketAcceptMessageFrames],
      by simp [processSocketAcceptMessageFrames]⟩
  | processSocketRwMessage =>
    cases h
    refine ⟨rfl, fun g hg => ?_, fun g hg fd hcl => ?_⟩ <;>
      obtain ⟨pc, rfl⟩ := processSocketRwMessageFrames_calls hg
    · exact ⟨rfl, rfl⟩
    · cases hcl
  | script r phase =>
    simp only [Frame.step, scriptStep, scriptEnd] at h
    split at h <;> (try split at h) <;> (try split at h) <;> cases h <;>
      exact ⟨rfl, by simp [newScriptServiceFrames], by simp [newScriptServiceFrames]⟩

end

-- ---------------------------------------------------------------------------
-- Every step
-- ---------------------------------------------------------------------------

/-- A step of any frame; what the offline ones do is left open. -/
inductive FrameStep (σ : Shared) : Frame → Choice → Op → List Frame → Prop
  | network : NetworkStep σ op fs → FrameStep σ .network c op fs
  | socket : SocketStep σ pc op fs → FrameStep σ (.socket pc) c op fs
  | accept : AcceptStep σ pc c op fs → FrameStep σ (.accept pc) c op fs
  | listen : ListenStep σ pc c op fs → FrameStep σ (.listen pc) c op fs
  | close : CloseStep σ pc op fs → FrameStep σ (.close pc) c op fs
  | gateway : GatewayStep σ pc c op fs → FrameStep σ (.gateway pc) c op fs
  | modify : ModifyStep σ fd canWrite op fs → FrameStep σ (.modifyEvent fd canWrite) c op fs
  | offline : OfflineStep σ op fs → FrameStep σ f c op fs

theorem Frame.step_cases (h : Frame.step σ f c = some (op, fs)) : FrameStep σ f c op fs := by
  cases f with
  | network => exact .network (networkStep_cases h)
  | socket => exact .socket (SocketPc.step_cases h)
  | accept => exact .accept (AcceptPc.step_cases h)
  | listen => exact .listen (ListenPc.step_cases h)
  | close => exact .close (ClosePc.step_cases (Option.some.inj h))
  | gateway => exact .gateway (GatewayPc.step_cases h)
  | modifyEvent => exact .modify (modifyEvent_cases h)
  | _ => exact .offline (step_offline rfl h)

theorem step_enabled (h : Frame.step σ f c = some (op, fs)) : op.enabled σ.kernel := by
  cases Frame.step_cases h with
  | accept hs =>
    cases hs with
    | accepted _ _ hfree => exact hfree
    | added hf => exact ⟨_, hf⟩
    | _ => trivial
  | listen hs =>
    cases hs with
    | opened hfree | openedZero hfree => exact hfree
    | added hf => exact ⟨_, hf⟩
    | _ => trivial
  | modify hs =>
    cases hs with
    | notModified => trivial
    | modified hf => exact ⟨_, hf⟩
  | network hs | socket hs | close hs | gateway hs => cases hs <;> trivial
  | offline ho => exact enabled_of_offline ho.outside

/-- A report is of a registered file, under its number. -/
theorem KernelOk.of_reports {k : Kernel} (hk : KernelOk k) (h : k.reports e) :
    k.descriptors e.fd = some e.file ∧ (k.files e.file).interest.isSome ∧
      ((k.files e.file).readable → e.epollIn = true) := by
  simp only [Kernel.reports, Bool.and_eq_true, beq_iff_eq, Bool.or_eq_true,
    Bool.not_eq_true'] at h
  obtain ⟨⟨⟨hready, hfd⟩, hin⟩, -⟩ := h
  have hint := hk.marked _ hready
  refine ⟨by rw [hfd]; exact hk.registered _ hint, hint, fun hread => hin.resolve_left ?_⟩
  simp [hread]

theorem Reach.kernelOk (h : system.Reach C (initial n p k) s) : KernelOk s.shared.kernel := by
  refine h.invariant (I := fun σ _ => KernelOk σ.kernel) ⟨?_, ?_, ?_, ?_⟩
    fun s l fs R _ _ _ hm hi => hi.apply (step_enabled hm) <;>
  simp [initial, Shared.initial, Kernel.empty]

end XianNet
