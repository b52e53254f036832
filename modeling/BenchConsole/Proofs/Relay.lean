import BenchConsole.Proofs.Relay.Routing
import Mathlib.Logic.Relation

/-!
# Relays that can be reached

`Reachable` are the relays that come of a new one by any sequence of operations, with any
runtimes. Every operation is a chain of a few kinds of steps (`Step`), so that a property which
each kind of step keeps holds of all of them (`Reachable.induction`).

One such property is that the memo holds nothing but the outcomes of reading its texts
(`Memo.IsFaithful`). So to execute a text through a relay is to run it on its bench, remembered or
not (`Reachable.execute_eq`).
-/

namespace BenchConsole.Relay

open Relation Script Text

variable {σ : Type}

/-- The parts that the operations of a relay are made of. -/
inductive Step (h : Hardware σ) : Relay σ → Relay σ → Prop
  | execute (text : String) : Step h e (e.execute h text).2
  | echo (line : String) : Step h e (e.echo line)
  | answer (a : Option Answer) : Step h e { e with answer := a }
  | queue (q : PendingQueue) : Step h e { e with queue := q }
  | take : Step h e e.takeEchoes.2

/-- The relays that come of a new one by its operations. -/
inductive Reachable (h : Hardware σ) : Relay σ → Prop
  | new (device : σ) (protocol : Protocol) : Reachable h (.new device protocol)
  | execute (text : String) : Reachable h e → Reachable h (e.execute h text).2
  | receive {ρ : Type} (rt : Runtime ρ) (r : ρ) (line : String) :
    Reachable h e → Reachable h (e.receive h rt r line).2.1
  | ask {ρ : Type} (rt : Runtime ρ) (r : ρ) (command : String) :
    Reachable h e → Reachable h (e.ask h rt r command).2.1
  | post {ρ : Type} (rt : Runtime ρ) (r : ρ) (command : String) :
    Reachable h e → Reachable h (e.post h rt r command).2.1
  | drain {ρ : Type} (rt : Runtime ρ) (r : ρ) :
    Reachable h e → Reachable h (e.drain h rt r).2.1
  | takeEchoes : Reachable h e → Reachable h e.takeEchoes.2

/-! ## Operations as steps -/

section

variable {ρ : Type} (h : Hardware σ) (rt : Runtime ρ) (e : Relay σ) (r : ρ)

theorem steps_runNow (command : String) :
    ReflTransGen (Step h) e (e.runNow h command).2 :=
  ((ReflTransGen.single (.execute command)).tail (.echo _)).tail (.answer _)

theorem steps_postpone (command : String) :
    ReflTransGen (Step h) e (e.postpone command).2 := by
  unfold postpone
  split
  · exact .single (.queue _)
  · exact .refl

theorem steps_receive (line : String) :
    ReflTransGen (Step h) e (e.receive h rt r line).2.1 := by
  simp only [receive]
  split
  · split
    · exact steps_runNow h e _
    · exact steps_postpone h e _
  · split
    · exact steps_postpone h e _
    · exact .refl

theorem steps_ask (command : String) :
    ReflTransGen (Step h) e (e.ask h rt r command).2.1 := by
  rw [ask_eq]
  exact (ReflTransGen.single (.answer none)).trans (steps_receive h rt _ _ _)

theorem steps_post (command : String) :
    ReflTransGen (Step h) e (e.post h rt r command).2.1 := by
  rw [post_eq]
  exact steps_receive h rt e r _

theorem steps_drainAtMost (fuel : Nat) :
    ReflTransGen (Step h) e (drainAtMost h rt fuel e r).2.1 := by
  induction fuel generalizing e r with
  | zero => exact .refl
  | succ fuel ih =>
    rw [drainAtMost]
    split
    · exact .refl
    · next entry queue _ =>
      have hpopped : ReflTransGen (Step h) e { e with queue } := .single (.queue queue)
      exact ((hpopped.tail (.execute entry.command)).tail (.echo _)).trans (ih _ _)

end

variable {h : Hardware σ} {e : Relay σ} {memo : Memo}

/-- What holds of new relays and is kept by every step holds of all relays that can be reached. -/
theorem Reachable.induction {motive : Relay σ → Prop} (hr : Reachable h e)
    (hnew : ∀ device protocol, motive (.new device protocol))
    (hstep : ∀ e e', Step h e e' → motive e → motive e') : motive e := by
  have hsteps {e e' : Relay σ} (he : motive e) (hs : ReflTransGen (Step h) e e') : motive e' := by
    induction hs with
    | refl => exact he
    | tail _ hs ih => exact hstep _ _ hs ih
  induction hr with
  | new device protocol => exact hnew device protocol
  | execute text _ ih => exact hstep _ _ (.execute text) ih
  | receive rt r line _ ih => exact hsteps ih (steps_receive h rt _ r line)
  | ask rt r command _ ih => exact hsteps ih (steps_ask h rt _ r command)
  | post rt r command _ ih => exact hsteps ih (steps_post h rt _ r command)
  | drain rt r _ ih => exact hsteps ih (steps_drainAtMost h rt _ r _)
  | takeEchoes _ ih => exact hstep _ _ .take ih

/-! ## The memo -/

/-- Every remembered outcome is the one that reading its text gives. -/
def Memo.IsFaithful (memo : Memo) : Prop :=
  ∀ entry ∈ memo.entries, entry.2 = Command.parse entry.1

theorem Memo.IsFaithful.read_eq (hm : memo.IsFaithful) (text : String) :
    (memo.read text).1 = Command.parse text := by
  unfold Memo.read
  split
  · next parsed hfind =>
    obtain ⟨before, after, he, -⟩ := List.lookup_eq_some_iff.mp hfind
    exact hm (text, parsed) (by simp [he])
  · rfl

theorem Memo.IsFaithful.read (hm : memo.IsFaithful) (text : String) :
    (memo.read text).2.IsFaithful := by
  unfold Memo.read
  split
  · exact hm
  · intro entry hentry
    simp only [Memo.remember] at hentry
    split at hentry
    · exact hm entry hentry
    · rcases List.mem_append.mp hentry with hentry | hentry
      · split at hentry
        · exact hm entry (List.mem_of_mem_tail hentry)
        · exact hm entry hentry
      · obtain rfl := List.mem_singleton.mp hentry
        rfl

theorem Reachable.memo_isFaithful (hr : Reachable h e) : e.memo.IsFaithful := by
  refine hr.induction (motive := fun e => e.memo.IsFaithful) ?_ ?_
  · intro device protocol entry hentry
    cases hentry
  · intro e e' hs he
    cases hs with
    | execute text => exact he.read _
    | _ => exact he

theorem Memo.IsFaithful.execute_eq (hm : e.memo.IsFaithful) (text : String) :
    (e.execute h text).1 = (e.bench.run h text).1 ∧
      (e.execute h text).2.bench = (e.bench.run h text).2 := by
  have hparse : Command.parse (trimmed text) = Command.parse text := by
    rw [Command.parse, Command.ofChars, trimmed, String.toList_ofList, trim_trim]
    rfl
  have hread := hm.read_eq (trimmed text)
  simp only [Relay.execute, hread, hparse]
  exact ⟨rfl, rfl⟩

/-- To execute a text through a relay is to run it on the relay's bench. -/
theorem Reachable.execute_eq (hr : Reachable h e) (text : String) :
    (e.execute h text).1 = (e.bench.run h text).1 ∧
      (e.execute h text).2.bench = (e.bench.run h text).2 :=
  hr.memo_isFaithful.execute_eq text

end BenchConsole.Relay
