import BenchConsole.Proofs.Bench
import BenchConsole.Proofs.Binding.Request
import BenchConsole.Proofs.Command.Spelling

/-!
# Effects of runs

A command text makes one request or none. `Malformed` are the texts that make none: those that are
not read, not bound, or bound to a value that does not fit its field. They are found out before
the hardware is asked (`prepared_cases`), so they change nothing but two counters. Any other text
makes exactly one request, and the answer to it decides what is counted (`run_effects`).
-/

namespace BenchConsole.Bench

open Text Board

/-- The texts that stand for no request. -/
inductive Malformed (text : String) : Prop
  | unread {failure : Failure} : Command.parse text = .error failure → Malformed text
  | unbound {failure : Failure} : Command.parse text = .ok c →
    signature c.category c.action = some parameters →
    Binding.ofCommand c parameters = .error failure → Malformed text
  | misfit : Command.parse text = .ok c → signature c.category c.action = some parameters →
    Binding.ofCommand c parameters = .ok b → place ∈ b.places → place.Misfit → Malformed text

/-- The kinds of failures that come before the hardware. -/
def rejectionKinds : List FailureKind :=
  [.invalidCommand, .invalidFunction, .invalidSubaction, .invalidParameterType, .missingParameter]

variable {σ : Type} {text : String} {failure : Failure}

theorem kind_of_parse (h : Command.parse text = .error failure) :
    failure.kind ∈ rejectionKinds := by
  have hverdict : Grammar.Verdict (trim text.toList) (.error failure.kind) :=
    Command.verdict_iff.mpr (by rw [h]; rfl)
  generalize failure.kind = kind at hverdict
  cases hverdict <;> decide

/-- A text is malformed and fails to be prepared, or neither. -/
theorem prepared_cases (text : String) :
    (Malformed text ∧ ∃ failure, prepared text = .error failure ∧ failure.kind ∈ rejectionKinds) ∨
    (¬Malformed text ∧ ∃ echo request, prepared text = .ok (echo, request)) := by
  cases hc : Command.parse text with
  | error failure =>
    refine .inl ⟨.unread hc, failure, ?_, kind_of_parse hc⟩
    rw [prepared, hc]
    rfl
  | ok c =>
    obtain ⟨parameters, hs⟩ := Option.isSome_iff_exists.mp (isSome_signature_of_parse hc)
    have hp : prepared text = Binding.ofCommand c parameters >>= fun b =>
        b.request >>= fun request => pure (b.echo, request) := by
      rw [prepared_of_parse hc, Command.prepare, hs]
    cases hb : Binding.ofCommand c parameters with
    | error failure =>
      refine .inl ⟨.unbound hc hs hb, failure, by rw [hp, hb]; rfl, ?_⟩
      rcases Binding.kind_of_ofCommand hb with hkind | hkind
      all_goals
        rw [hkind]
        decide
    | ok b =>
      have hbound := Binding.isBound_of_ofCommand hb
      have hrequest : prepared text = b.request >>= fun request => pure (b.echo, request) := by
        rw [hp, hb]
        rfl
      rcases hbound.request_refusedIff hs with ⟨⟨place, hplace, hm⟩, detail, hr⟩ | ⟨hfits, r, hr⟩
      · have hkind : (Failure.invalidParameterType detail).kind ∈ rejectionKinds := by
          simp [rejectionKinds, Failure.kind]
        exact .inl ⟨.misfit hc hs hb hplace hm, _, by rw [hrequest, hr]; rfl, hkind⟩
      · refine .inr ⟨?_, b.echo, r, by rw [hrequest, hr]; rfl⟩
        rintro (hc' | ⟨hc', hs', hb'⟩ | ⟨hc', hs', hb', hplace, hm⟩)
        · cases hc.symm.trans hc'
        · cases hc.symm.trans hc'
          cases hs.symm.trans hs'
          cases hb.symm.trans hb'
        · cases hc.symm.trans hc'
          cases hs.symm.trans hs'
          cases hb.symm.trans hb'
          exact hfits ⟨_, hplace, hm⟩

/-- A malformed text makes no request, leaves the hardware as it is and counts as one failure, of a
kind that comes before the hardware. Any other text makes one request, and the answer to it is
what is counted and whether the response is an error. -/
theorem run_effects (h : Hardware σ) (x : Bench σ) (text : String) :
    (x.requests h [text]).length ≤ 1 ∧ (x.requests h [text] = [] ↔ Malformed text) ∧
    (Malformed text →
      (x.run h text).2 = ⟨x.device, { x.stats with
        total := x.stats.total + 1
        failed := x.stats.failed + 1 }⟩ ∧
      ∃ kind ∈ rejectionKinds, (x.run h text).1.errorKind? = some kind) ∧
    ∀ request ∈ x.requests h [text],
      (x.run h text).2.device = (h.handle request x.device).2 ∧
      match (h.handle request x.device).1 with
      | .ok _ =>
        (x.run h text).2.stats = { x.stats with
          total := x.stats.total + 1
          hardwareCalls := x.stats.hardwareCalls + 1
          successful := x.stats.successful + 1 } ∧
        (x.run h text).1.errorKind? = none
      | .error _ =>
        (x.run h text).2.stats = { x.stats with
          total := x.stats.total + 1
          hardwareCalls := x.stats.hardwareCalls + 1
          failed := x.stats.failed + 1 } ∧
        (x.run h text).1.errorKind? = some .hardwareError := by
  have hrequests : x.requests h [text] = ((prepared text).toOption.map Prod.snd).toList := by
    rw [requests_eq, List.filterMap_cons, List.filterMap_nil, request?_eq]
    cases (prepared text).toOption.map Prod.snd <;> rfl
  rw [hrequests]
  rcases prepared_cases text with ⟨hm, failure, hp, hkind⟩ | ⟨hm, echo, request, hp⟩
  · rw [run_of_failed x hp, hp]
    refine ⟨Nat.zero_le 1, iff_of_true rfl hm, fun _ => ⟨rfl, _, hkind, rfl⟩, ?_⟩
    rintro request ⟨⟩
  · rw [run_of_prepared x hp, hp]
    refine ⟨Nat.le_refl 1, iff_of_false (List.cons_ne_nil _ _) hm, fun hmal => absurd hmal hm, ?_⟩
    intro r hr
    obtain rfl : r = request := List.mem_singleton.mp hr
    refine ⟨rfl, ?_⟩
    have hstats : (x.perform h echo r).2.stats = x.stats.answered (h.handle r x.device).1 := rfl
    have hresponse : (x.perform h echo r).1 = .ofReply echo (h.handle r x.device).1 := rfl
    rw [hstats, hresponse]
    cases (h.handle r x.device).1 with
    | ok reply => exact ⟨rfl, rfl⟩
    | error fault => exact ⟨rfl, rfl⟩

end BenchConsole.Bench
