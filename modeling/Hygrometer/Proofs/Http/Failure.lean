import Hygrometer.Http
import Hygrometer.Proofs.Json.Unambiguous

/-!
# Answers to failures

The response to a failure has the status of its kind, and a JSON body with its code and its whole
message. The body is a text of one value (`Response.isTextOf_body_ofFailure_iff`), so whoever reads
it as JSON finds the members that were written, and can tell which failure it was from two of them
(`Failure.eq_of_code_of_message`): the code fixes the kind, and the message is a heading of the kind
with the detail behind it.

**The detail may be any text.** It may hold quotes, backslashes, line ends and whatever a client has
sent, since it quotes parts of requests and files. It is written as a JSON string, and what is read
out of it is the detail as it was; nothing of it can close the string or add a member to the body,
which is a text of no other value.
-/

namespace Hygrometer

/-- A kind of failure is known by its code. -/
theorem FailureKind.code_injective : Function.Injective FailureKind.code := by
  intro k k' h
  cases k <;> cases k' <;> first | rfl | (revert h; decide)

/-- **A failure is known** by its code and its message. -/
theorem Failure.eq_of_code_of_message {f g : Failure} (hcode : f.kind.code = g.kind.code)
    (hmessage : f.message = g.message) : f = g := by
  obtain ⟨kind, detail⟩ := f
  obtain ⟨kind', detail'⟩ := g
  obtain rfl : kind = kind' := FailureKind.code_injective hcode
  obtain rfl : detail = detail' := (String.append_right_inj _).1 hmessage
  rfl

namespace Http.Response

open Json (IsTextOf NoControl)

/-- What the body of the response to a failure says. -/
def failureValue (f : Failure) : Json.Value :=
  .object [("code", .text f.kind.code), ("msg", .text f.message), ("ok", .boolean false)]

/-- **The body says one thing**, which is the failure. -/
theorem isTextOf_body_ofFailure_iff (f : Failure) (v : Json.Value) :
    IsTextOf v (ofFailure f).body ↔ v = failureValue f := by
  have hbody : IsTextOf (failureValue f) (ofFailure f).body :=
    Json.isTextOf_object <| .cons ⟨rfl, Json.spells_quote _⟩ <| .cons ⟨rfl, Json.spells_quote _⟩ <|
      .cons ⟨rfl, .boolean false⟩ .nil
  exact ⟨fun h ↦ h.unique hbody, fun h ↦ h ▸ hbody⟩

theorem noControl_body_ofFailure (f : Failure) : NoControl (ofFailure f).body.toList := by
  refine Json.noControl_object ?_
  simp only [List.forall_mem_cons]
  exact ⟨(Json.isString_quote _).noControl, (Json.isString_quote _).noControl,
    by simp [NoControl], fun _ h ↦ nomatch h⟩

/-- **The response to a failure is faithful.** For every kind and every detail,

* the status is that of the kind, a code of its own that is no success and no redirect;
* the body has no control character in it;
* whoever reads the body as JSON comes to an object of three members, the code of the kind, the
  heading of the kind with the detail behind it, and that it is not well;
* no other failure has that body. -/
theorem ofFailure_faithful (f : Failure) :
    let response := ofFailure f
    (f.kind, response.status, f.kind.code, f.kind.heading) ∈
      [(.badRequest, 400, "BAD_REQUEST", "bad request: "),
        (.sensorUnavailable, 503, "SENSOR_UNAVAILABLE", "sensor unavailable: "),
        (.malformedPayload, 502, "MALFORMED_PAYLOAD", "malformed sensor payload: "),
        (.bind, 500, "BIND_FAILED", "bind failed: "),
        (.internal, 500, "INTERNAL", "internal: ")] ∧
    isStatus f.kind.status = true ∧ 400 ≤ response.status ∧ response.status < 600 ∧
    (∀ c ∈ response.body.toList, 32 ≤ c.toNat) ∧
    (∀ v, IsTextOf v response.body ↔
      v = .object [("code", .text f.kind.code), ("msg", .text (f.kind.heading ++ f.detail)),
        ("ok", .boolean false)]) ∧
    ∀ g, (ofFailure g).body = response.body → g = f := by
  intro response
  have hstatus : response.status = f.kind.status := statusOf_status f.kind
  have herror : 400 ≤ f.kind.status ∧ f.kind.status < 600 := by cases f.kind <;> decide
  refine ⟨?_, ?_, hstatus ▸ herror.1, hstatus ▸ herror.2, noControl_body_ofFailure f,
    isTextOf_body_ofFailure_iff f, fun g hbody ↦ ?_⟩
  · rw [hstatus]
    cases f.kind <;> decide
  · cases f.kind <;> rfl
  · have hg := (isTextOf_body_ofFailure_iff g _).2 rfl
    rw [hbody, isTextOf_body_ofFailure_iff, failureValue, failureValue] at hg
    simp only [Json.Value.object.injEq, List.cons.injEq, Prod.mk.injEq, Json.Value.text.injEq] at hg
    exact Failure.eq_of_code_of_message hg.1.2 hg.2.1.2

/-- A detail with a quote, a backslash, a line feed and a control character. -/
theorem ofFailure_faithful_escapes :
    let response := ofFailure ⟨.malformedPayload, "\"\\\n\x01"⟩
    response.status = 502 ∧
    response.body = "\x7b\"code\":\"MALFORMED_PAYLOAD\",\"msg\":\"malformed sensor payload: \\\"" ++
      "\\\\\\n\\u0001\",\"ok\":false\x7d" ∧
    (∀ v, IsTextOf v response.body ↔
      v = .object [("code", .text "MALFORMED_PAYLOAD"),
        ("msg", .text "malformed sensor payload: \"\\\n\x01"), ("ok", .boolean false)]) ∧
    response.body ≠ (ofFailure ⟨.internal, "\"\\\n\x01"⟩).body := by
  obtain ⟨-, -, -, -, -, hbody, hinj⟩ := ofFailure_faithful ⟨.malformedPayload, "\"\\\n\x01"⟩
  refine ⟨rfl, by decide +kernel, hbody, fun heq ↦ ?_⟩
  cases hinj ⟨.internal, "\"\\\n\x01"⟩ heq.symm

end Http.Response
end Hygrometer
