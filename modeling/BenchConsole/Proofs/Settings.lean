import BenchConsole.Proofs.Relay.Routing
import BenchConsole.Settings

/-!
# Valid settings

Settings are checked one thing after the other, and the first problem is reported. Settings without
any are `Usable`: `validate_eq_ok_iff`.
-/

namespace BenchConsole.Settings

/-- What the relay, the board and the log rely on. -/
structure Usable (s : Settings) (isLevel : String → Bool) : Prop where
  queueCapacity : s.protocol.queueCapacity ≠ 0
  pollAttempts : s.protocol.pollAttempts ≠ 0
  syncSentinel : s.protocol.syncSentinel ≠ ""
  queueSentinel : s.protocol.queueSentinel ≠ ""
  apart : Relay.Apart s.protocol.syncSentinel s.protocol.queueSentinel
  dacRange : ¬s.board.dacMaxVolts ≤ s.board.dacMinVolts
  logLevel : isLevel s.logLevel

theorem startsWith_iff {text start : String} :
    startsWith text start ↔ start.toList <+: text.toList := by
  rw [startsWith, List.isPrefixOf_iff_prefix]

theorem ite_some_eq_none_iff {α : Type} {c : Prop} [Decidable c] {x : α} {rest : Option α} :
    (if c then some x else rest) = none ↔ ¬c ∧ rest = none := by
  split
  · next h => exact iff_of_false nofun fun hc => hc.1 h
  · next h => exact (and_iff_right h).symm

theorem validate_eq_ok_iff {s : Settings} {isLevel : String → Bool} :
    s.validate isLevel = .ok () ↔ s.Usable isLevel := by
  have hproblem : s.validate isLevel = .ok () ↔ s.problem? isLevel = none := by
    unfold validate
    cases s.problem? isLevel <;> simp
  rw [hproblem]
  simp only [problem?, ite_some_eq_none_iff, Bool.or_eq_true, startsWith_iff,
    String.isEmpty_iff, not_or, Bool.not_eq_true, Bool.not_eq_false', and_true]
  constructor
  · rintro ⟨hcapacity, hpolls, ⟨hsync, hqueue⟩, ⟨hright, hleft⟩, hrange, hlevel⟩
    exact ⟨hcapacity, hpolls, hsync, hqueue, ⟨hleft, hright⟩, hrange, hlevel⟩
  · intro h
    exact ⟨h.queueCapacity, h.pollAttempts, ⟨h.syncSentinel, h.queueSentinel⟩,
      ⟨h.apart.right, h.apart.left⟩, h.dacRange, h.logLevel⟩

end BenchConsole.Settings
