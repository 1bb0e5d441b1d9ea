import Mathlib.Logic.Function.Basic
import XianNet.Interleaving.Simulation

/-!
# Actors

Every actor has a mailbox, and handles one message at a time. Whatever order
the actors take turns in, each of them handles what was posted to it in the
order in which it was posted (`Actors.served_in_order`).
-/

namespace Interleaving

structure Actors (ρ μ : Type) where
  mailbox : ρ → List μ
  /-- The message that is being handled. -/
  current : ρ → Option μ
  /-- The messages that were handled, in order. -/
  done : ρ → List μ

inductive ActorEvent (ρ μ : Type)
  | post (r : ρ) (m : μ)
  | start (r : ρ) (m : μ)
  | finish (r : ρ)
  deriving DecidableEq, Repr

def ActorEvent.actor : ActorEvent ρ μ → ρ
  | .post r _ | .start r _ | .finish r => r

variable {ρ μ : Type} [DecidableEq ρ]

/-- Nothing posted yet. -/
def Actors.idle : Actors ρ μ := ⟨fun _ => [], fun _ => none, fun _ => []⟩

/-- An actor starts on the first message of its mailbox, when it has finished
the one before. -/
inductive Actors.Step : Actors ρ μ → ActorEvent ρ μ → Actors ρ μ → Prop
  | post {a : Actors ρ μ} {r : ρ} {m : μ} : Actors.Step a (.post r m)
      { a with mailbox := Function.update a.mailbox r (a.mailbox r ++ [m]) }
  | start {a : Actors ρ μ} {r : ρ} {m : μ} {messages : List μ} : a.current r = none →
      a.mailbox r = m :: messages → Actors.Step a (.start r m)
        { a with
          mailbox := Function.update a.mailbox r messages
          current := Function.update a.current r (some m) }
  | finish {a : Actors ρ μ} {r : ρ} {m : μ} : a.current r = some m → Actors.Step a (.finish r)
      { a with
        current := Function.update a.current r none
        done := Function.update a.done r (a.done r ++ [m]) }

/-- The messages posted to `r`, in order. -/
def ActorEvent.posted (r : ρ) : ActorEvent ρ μ → List μ
  | .post r' m => if r' = r then [m] else []
  | _ => []

theorem ActorEvent.posted_of_ne {e : ActorEvent ρ μ} (h : e.actor ≠ r) : e.posted r = [] := by
  cases e with
  | post => exact if_neg h
  | _ => rfl

theorem Actors.Step.serves {a a' : Actors ρ μ} (h : Actors.Step a e a') (r : ρ) :
    a'.done r ++ (a'.current r).toList ++ a'.mailbox r =
      a.done r ++ (a.current r).toList ++ a.mailbox r ++ e.posted r := by
  cases h with
  | @post r' m =>
    by_cases hr : r' = r
    · subst hr; simp [ActorEvent.posted]
    · simp [ActorEvent.posted, hr, Function.update_of_ne (Ne.symm hr)]
  | @start r' m messages hnone hbox =>
    by_cases hr : r' = r
    · subst hr; simp [ActorEvent.posted, hnone, hbox]
    · simp [ActorEvent.posted, Function.update_of_ne (Ne.symm hr)]
  | @finish r' m hsome =>
    by_cases hr : r' = r
    · subst hr; simp [ActorEvent.posted, hsome]
    · simp [ActorEvent.posted, Function.update_of_ne (Ne.symm hr)]

/-- What was handled, what is being handled and what waits is what was posted. -/
theorem Actors.served_in_order {a : Actors ρ μ} (h : Drives Actors.Step Actors.idle es a) (r : ρ) :
    es.flatMap (ActorEvent.posted r) = a.done r ++ (a.current r).toList ++ a.mailbox r := by
  refine h.induct (I := fun es a => es.flatMap (ActorEvent.posted r) =
    a.done r ++ (a.current r).toList ++ a.mailbox r) rfl ?_
  intro es b e b' hi he
  rw [he.serves, ← hi]
  simp

end Interleaving
