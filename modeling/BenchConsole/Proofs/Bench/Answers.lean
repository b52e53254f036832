import BenchConsole.Proofs.Answer
import BenchConsole.Proofs.Bench
import BenchConsole.Proofs.Binding.Echo

/-!
# Answers of runs

What a run answers on the wire, read back. A text that makes no request is read back as an error
(`run_failed_answer`), a reply with a value as that value (`run_conveys`), and a reply without one
as the echo of its command, as long as the echo shows no separator (`run_done_answer`). The echo
shows none if no argument holds both quotation marks. A text with both is written between marks
that occur in it, and what stands behind the second of them is read as if it were not quoted.
-/

namespace BenchConsole.Bench

open Board Answer

variable {σ : Type} {text echo : String} {c : Command} {request : Request} {reply : Reply}

/-- A text that makes no request has an error for its answer, never a value. -/
theorem run_failed_answer (h : Hardware σ) (x : Bench σ) {failure : Failure}
    (hp : prepared text = .error failure) :
    ofResponse (x.run h text).1 = ⟨Text.trimmed failure.message, .error, 0.0⟩ := by
  rw [run_of_failed x hp]
  exact ofResponse_error failure.kind failure.message

theorem response_of_handle (h : Hardware σ) (x : Bench σ) (hc : Command.parse text = .ok c)
    (hp : c.prepare = .ok (echo, request)) (hr : (h.handle request x.device).1 = .ok reply) :
    (x.run h text).1 = .success echo (Response.valueText? reply) := by
  have hresponse : (x.run h text).1 = .ofReply echo (h.handle request x.device).1 := by
    rw [run_of_prepared x ((prepared_of_parse hc).trans hp)]
    rfl
  rw [hresponse, hr]
  rfl

/-- The answer of a command without a value is its echo, as a text, if and only if the echo shows
no separator. It shows none unless some argument holds both quotation marks. -/
theorem run_done_answer (h : Hardware σ) (x : Bench σ) (hc : Command.parse text = .ok c)
    (hp : c.prepare = .ok (echo, request)) (hd : (h.handle request x.device).1 = .ok .done) :
    (ofResponse (x.run h text).1 = ⟨echo, .string, 0.0⟩ ↔ ¬ShowsSeparator echo.toList) ∧
      ((∀ a ∈ c.arguments, a.value.OneMark) → ¬ShowsSeparator echo.toList) := by
  rw [response_of_handle h x hc hp hd]
  refine ⟨ofResponse_echo_iff (Command.isTrimmed_of_prepare hp), fun hm => ?_⟩
  exact (Command.isEnclosed_of_prepare hc hp hm).not_showsSeparator

/-- The command of the text `oled(print, "') = 5 "")`: its value is `') = 5 "`. -/
def printClosing : Command :=
  ⟨"oled", .oled, .print, "print", .keyword, [⟨none, .string "') = 5 \""⟩]⟩

/-- A bench whose small display is connected. -/
def displayBench : Bench Board :=
  ⟨{ Board.new {} with oled := { connected := true } }, {}⟩

theorem run_done_answer_printClosing :
    let text := "oled(print, \"') = 5 \"\")"
    let echo := "oled(print, text='') = 5 \"')"
    let request : Request := .oled (.print "') = 5 \"")
    Command.parse text = .ok printClosing ∧ printClosing.prepare = .ok (echo, request) ∧
      (Board.simulated.handle request displayBench.device).1 = .ok .done ∧
      (ofResponse (displayBench.run Board.simulated text).1 = ⟨echo, .string, 0.0⟩ ↔
        ¬ShowsSeparator echo.toList) := by
  intro text echo request
  have hc : Command.parse "oled(print, \"') = 5 \"\")" = .ok printClosing := by rfl
  have hp : printClosing.prepare = .ok (echo, request) := by rfl
  exact ⟨hc, hp, rfl, (run_done_answer Board.simulated displayBench hc hp rfl).1⟩

/-- The echo `oled(print, text='') = 5 "')` is read as the value 5. -/
theorem not_forall_done_answer :
    ¬∀ (σ : Type) (h : Hardware σ) (x : Bench σ) (text echo : String) (request : Request),
      prepared text = .ok (echo, request) → (h.handle request x.device).1 = .ok .done →
      ofResponse (x.run h text).1 = ⟨echo, .string, 0.0⟩ := by
  intro hall
  have hp : prepared "oled(print, \"') = 5 \"\")" =
      .ok ("oled(print, text='') = 5 \"')", .oled (.print "') = 5 \"")) := by rfl
  have hanswer := hall Board Board.simulated displayBench _ _ _ hp rfl
  have htag : (ofResponse (displayBench.run Board.simulated
      "oled(print, \"') = 5 \"\")").1).tag = .int := by rfl
  rw [hanswer] at htag
  cases htag

/-- A reply is read back from the line of its response, if no argument of the command holds both
quotation marks. -/
theorem run_conveys (h : Hardware σ) (x : Bench σ) (hc : Command.parse text = .ok c)
    (hm : ∀ a ∈ c.arguments, a.value.OneMark) (hp : c.prepare = .ok (echo, request))
    (hr : (h.handle request x.device).1 = .ok reply) :
    Conveys reply (ofResponse (x.run h text).1) := by
  rw [response_of_handle h x hc hp hr]
  exact conveys_ofReply (Command.isEnclosed_of_prepare hc hp hm) reply

theorem run_conveys_configText :
    let text := "config(get, \"it's = 1) = (\", key='a\" = b')"
    let reply : Reply := .text " HIGH = ') (\" = 5 "
    let h : Hardware Unit := ⟨fun _ state => (.ok reply, state)⟩
    ∃ c echo request, Command.parse text = .ok c ∧ (∀ a ∈ c.arguments, a.value.OneMark) ∧
      c.prepare = .ok (echo, request) ∧ (h.handle request ()).1 = .ok reply ∧
      ∀ x : Bench Unit, Conveys reply (ofResponse (x.run h text).1) := by
  intro text reply h
  have hc : Command.parse "config(get, \"it's = 1) = (\", key='a\" = b')" =
      .ok ⟨"config", .config, .get, "get", .keyword,
        [⟨none, .string "it's = 1) = ("⟩, ⟨some "key", .string "a\" = b"⟩]⟩ := by rfl
  exact ⟨_, _, _, hc, by decide, rfl, rfl, fun x => run_conveys h x hc (by decide) rfl rfl⟩

end BenchConsole.Bench
