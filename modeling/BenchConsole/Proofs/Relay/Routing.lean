import BenchConsole.Proofs.Text.Lines
import BenchConsole.Relay

/-!
# The way of a line

What the relay does with a line is settled by the line, the sentinels and whether the runtime may
be entered: `route`. The command is run at once, or postponed, or the line passes through
(`receive_eq`).

Line ends are taken off the end of a line before a sentinel is looked for. A command that is handed
in behind a sentinel is found again behind it, short of the line ends at its end, as long as the
sentinel loses none of its own (`StaysWhole`, `afterSentinel?_stripped`). If neither sentinel starts
with the other, it is never found behind the other one (`afterSentinel?_of_apart`), so it takes the
way of its sentinel or passes through (`route_sync_of_apart`, `route_queue_of_apart`).
-/

namespace BenchConsole.Relay

open Script Text

/-- The ways that a line can take. -/
inductive Route where
  | run (command : String)
  | postpone (command : String)
  | pass

/-- A line without the line ends at its end. -/
def stripped (line : String) : String :=
  String.ofList (dropLineEnds line.toList)

/-- The command in a line: what stands behind its sentinel. -/
def commandOf? (p : Protocol) (line : String) : Option String :=
  (afterSentinel? p.syncSentinel (stripped line)).or
    (afterSentinel? p.queueSentinel (stripped line))

/-- The way of a line, given whether the runtime may be entered. -/
def route (p : Protocol) (safe : Bool) (line : String) : Route :=
  match afterSentinel? p.syncSentinel (stripped line) with
  | some command => if safe then .run command else .postpone command
  | none =>
    match afterSentinel? p.queueSentinel (stripped line) with
    | some command => .postpone command
    | none => .pass

variable {σ ρ : Type} {p : Protocol} {safe : Bool} {line command sentinel : String}

theorem receive_eq (h : Hardware σ) (rt : Runtime ρ) (e : Relay σ) (r : ρ) (line : String) :
    e.receive h rt r line =
      match route e.protocol (rt.reentrySafe r) line with
      | .run command =>
        (.executed (e.runNow h command).1, (e.runNow h command).2,
          (rt.execute (answerCode (.ofResponse (e.runNow h command).1)) r).2)
      | .postpone command => ((e.postpone command).1, (e.postpone command).2, r)
      | .pass => (.passthrough (String.ofList (withCrlfEndings line.toList)), e, r) := by
  simp only [receive, route, stripped]
  cases afterSentinel? e.protocol.syncSentinel (String.ofList (dropLineEnds line.toList)) with
  | some command => cases rt.reentrySafe r <;> rfl
  | none =>
    cases afterSentinel? e.protocol.queueSentinel (String.ofList (dropLineEnds line.toList)) <;> rfl

theorem receive_of_run {h : Hardware σ} {rt : Runtime ρ} {e : Relay σ} {r : ρ}
    (hroute : route e.protocol (rt.reentrySafe r) line = .run command) :
    e.receive h rt r line = (.executed (e.runNow h command).1, (e.runNow h command).2,
      (rt.execute (answerCode (.ofResponse (e.runNow h command).1)) r).2) := by
  rw [receive_eq, hroute]

theorem receive_of_postpone {h : Hardware σ} {rt : Runtime ρ} {e : Relay σ} {r : ρ}
    (hroute : route e.protocol (rt.reentrySafe r) line = .postpone command) :
    e.receive h rt r line = ((e.postpone command).1, (e.postpone command).2, r) := by
  rw [receive_eq, hroute]

theorem receive_of_pass {h : Hardware σ} {rt : Runtime ρ} {e : Relay σ} {r : ρ}
    (hroute : route e.protocol (rt.reentrySafe r) line = .pass) :
    e.receive h rt r line = (.passthrough (String.ofList (withCrlfEndings line.toList)), e, r) := by
  rw [receive_eq, hroute]

theorem commandOf?_of_run (h : route p safe line = .run command) :
    commandOf? p line = some command := by
  unfold route at h
  split at h
  · next hs =>
    split at h
    · cases h
      rw [commandOf?, hs, Option.some_or]
    · cases h
  · split at h <;> cases h

theorem commandOf?_of_postpone (h : route p safe line = .postpone command) :
    commandOf? p line = some command := by
  unfold route at h
  split at h
  · next hs =>
    split at h
    · cases h
    · cases h
      rw [commandOf?, hs, Option.some_or]
  · next hs =>
    split at h
    · next hq =>
      cases h
      rw [commandOf?, hs, hq, Option.none_or]
    · cases h

/-! ## Questions and posts -/

/-- What a question gives, by what became of its line. -/
def answerOfLine (later : Relay σ) : Outcome → Except Failure Answer
  | .queued pending => .error (.deferred pending)
  | .rejected failure => .error failure
  | .executed _ | .passthrough _ => later.answerOfCall

/-- What a post gives, by what became of its line. -/
def pendingOfLine : Outcome → Except Failure Nat
  | .queued pending => .ok pending
  | .rejected failure => .error failure
  | outcome => .error (.invalidCommand ("unexpected hook outcome " ++ outcome.describe))

theorem ask_eq (h : Hardware σ) (rt : Runtime ρ) (e : Relay σ) (r : ρ) (command : String) :
    let x := { e with answer := none }.receive h rt (rt.assign readyVariable (.bool false) r).2
      (e.protocol.syncSentinel ++ command)
    e.ask h rt r command = (answerOfLine x.2.1 x.1, x.2) := by
  simp only [ask]
  split
  all_goals
    next hx =>
    rw [hx, answerOfLine]

theorem post_eq (h : Hardware σ) (rt : Runtime ρ) (e : Relay σ) (r : ρ) (command : String) :
    let x := e.receive h rt r (e.protocol.queueSentinel ++ command)
    e.post h rt r command = (pendingOfLine x.1, x.2) := by
  simp only [post]
  split
  · next hx => rw [hx, pendingOfLine]
  · next hx => rw [hx, pendingOfLine]
  · next outcome later r' hqueued hrejected hx =>
    rw [hx]
    cases outcome with
    | queued pending => exact absurd rfl (hqueued pending)
    | rejected failure => exact absurd rfl (hrejected failure)
    | _ => rfl

/-! ## Commands behind sentinels -/

theorem trimmed_stripped (command : String) : trimmed (stripped command) = trimmed command := by
  rw [trimmed, stripped, String.toList_ofList, trim_dropLineEnds, trimmed]

theorem toList_stripped_append (sentinel command : String) :
    (stripped (sentinel ++ command)).toList =
      dropLineEnds (sentinel.toList ++ command.toList) := by
  rw [stripped, String.toList_ofList, String.toList_append]

theorem afterSentinel?_eq_some (rest : List Char) (h : line.toList = sentinel.toList ++ rest) :
    afterSentinel? sentinel line = some (String.ofList rest) := by
  rw [afterSentinel?, h, List.isPrefixOf?_eq_some_iff_append_eq.mpr rfl]
  rfl

theorem afterSentinel?_eq_none (h : ¬sentinel.toList <+: line.toList) :
    afterSentinel? sentinel line = none := by
  rw [afterSentinel?, Option.map_eq_none_iff, Option.eq_none_iff_forall_ne_some]
  intro rest hrest
  exact h ⟨rest, List.isPrefixOf?_eq_some_iff_append_eq.mp hrest⟩

/-- A sentinel that is left whole when line ends are taken off the end of a line that holds a
command behind it. -/
def StaysWhole (sentinel command : String) : Prop :=
  (∀ c ∈ sentinel.toList.getLast?, isLineEnd c = false) ∨ ∃ c ∈ command.toList, isLineEnd c = false

instance : Decidable (StaysWhole sentinel command) :=
  @instDecidableOr _ _ (Option.decidableForallMem _)
    (List.decidableBEx (fun c => isLineEnd c = false) _)

/-- A command is found behind its sentinel, unless line ends of the sentinel are taken for those of
the line. -/
theorem afterSentinel?_stripped (sentinel command : String) :
    afterSentinel? sentinel (stripped (sentinel ++ command)) =
      if StaysWhole sentinel command then some (stripped command) else none := by
  have hwhole : sentinel.toList <+: (stripped (sentinel ++ command)).toList ↔
      StaysWhole sentinel command := by
    rw [toList_stripped_append, prefix_dropLineEnds_append_iff, StaysWhole]
  split
  · next h =>
    have hprefix := hwhole.mpr h
    apply afterSentinel?_eq_some
    rw [toList_stripped_append] at hprefix ⊢
    exact dropLineEnds_append_of_prefix hprefix
  · next h => exact afterSentinel?_eq_none (mt hwhole.mp h)

/-- A command is found behind a sentinel that does not end in a line end. -/
theorem afterSentinel?_append (h : ∀ c ∈ sentinel.toList.getLast?, isLineEnd c = false)
    (command : String) :
    afterSentinel? sentinel (stripped (sentinel ++ command)) = some (stripped command) := by
  rw [afterSentinel?_stripped, if_pos (.inl h)]

/-- Neither of two sentinels starts with the other. -/
structure Apart (sentinel other : String) : Prop where
  left : ¬sentinel.toList <+: other.toList
  right : ¬other.toList <+: sentinel.toList

theorem afterSentinel?_of_apart {other : String} (h : Apart sentinel other) (command : String) :
    afterSentinel? other (stripped (sentinel ++ command)) = none := by
  apply afterSentinel?_eq_none
  intro hother
  rw [toList_stripped_append] at hother
  rcases List.prefix_or_prefix_of_prefix (hother.trans (dropLineEnds_isPrefix _))
    (List.prefix_append _ _) with hstart | hstart
  · exact h.right hstart
  · exact h.left hstart

theorem route_sync_of_apart (h : Apart p.syncSentinel p.queueSentinel) (safe : Bool)
    (command : String) : route p safe (p.syncSentinel ++ command) =
      if StaysWhole p.syncSentinel command then
        if safe then .run (stripped command) else .postpone (stripped command)
      else .pass := by
  rw [route, afterSentinel?_of_apart h, afterSentinel?_stripped]
  by_cases hwhole : StaysWhole p.syncSentinel command
  · rw [if_pos hwhole, if_pos hwhole]
  · rw [if_neg hwhole, if_neg hwhole]

theorem route_sync_eq_pass_iff (h : Apart p.syncSentinel p.queueSentinel) :
    route p safe (p.syncSentinel ++ command) = .pass ↔ ¬StaysWhole p.syncSentinel command := by
  rw [route_sync_of_apart h]
  split
  · next hwhole =>
    refine iff_of_false ?_ (not_not_intro hwhole)
    cases safe <;> nofun
  · next hwhole => exact iff_of_true rfl hwhole

theorem route_queue_of_apart (h : Apart p.syncSentinel p.queueSentinel) (safe : Bool)
    (command : String) : route p safe (p.queueSentinel ++ command) =
      if StaysWhole p.queueSentinel command then .postpone (stripped command) else .pass := by
  rw [route, afterSentinel?_of_apart ⟨h.right, h.left⟩, afterSentinel?_stripped]
  by_cases hwhole : StaysWhole p.queueSentinel command
  · rw [if_pos hwhole, if_pos hwhole]
  · rw [if_neg hwhole, if_neg hwhole]

end BenchConsole.Relay
