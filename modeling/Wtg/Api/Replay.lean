import Wtg.Api.Http

/-! # Replays

A request whose idempotency key has a committed reply is answered from the cache
(`reserveIdempotency` of `internal/api/handlers/idempotency.go`): with the status and the body that
the first handler wrote, under the content type of JSON. -/

namespace Wtg.Api.Replay

open Svcio Idempotency.Stores Api.Frames Api.Http Option

inductive Panic
  | beforeHeader
  | afterHeader (written : ℕ)

structure Execution where
  deps : Deps
  now : ℤ
  traceIDHex : String
  call : Frame → Except CallErr Reply
  panics : Option Panic

/-! ## The first request -/

section

variable (C : Codec) (W : World) (p : Principal) (req : HttpRequest) (env : Envelope)
  (x : Execution)

def written : Response := answer C W x.deps x.now p x.traceIDHex req env x.call

def captured : CachedReply :=
  match x.panics with
  | none => ⟨(written C W p req env x).status, (written C W p req env x).body⟩
  | some .beforeHeader => ⟨200, []⟩
  | some (.afterHeader n) =>
    ⟨(written C W p req env x).status, (written C W p req env x).body.take n⟩

def committed : Option CachedReply :=
  if 500 ≤ (captured C W p req env x).statusCode then none else some (captured C W p req env x)

def recoverText : Wire.Bytes := utf8 "\x7b\"error\":\"internal server error\"\x7d\n"

def received : Response :=
  match x.panics with
  | none => written C W p req env x
  | some .beforeHeader => ⟨500, textType, none, recoverText⟩
  | some (.afterHeader n) =>
    { written C W p req env x with body := (written C W p req env x).body.take n ++ recoverText }

end

def replay (c : CachedReply) : Response := ⟨c.statusCode, jsonType, none, c.body⟩

def designated (env : Envelope) : String × String × String :=
  (env.aliasName, env.exchange, env.routingKey)

def inHeaders (req : HttpRequest) : String × String × String :=
  (req.aliasHeader, req.exchangeHeader, req.routingKeyHeader)

variable {C : Codec} {W : World} {p : Principal} {req : HttpRequest} {env : Envelope}

lemma captured_of_committed {x : Execution} {c : CachedReply}
    (h : committed C W p req env x = some c) : captured C W p req env x = c := by
  unfold committed at h
  split_ifs at h
  exact some.inj h

lemma recoverText_ne_nil : recoverText ≠ [] := by decide +kernel

lemma replay_eq_received_iff {x : Execution} {c : CachedReply}
    (h : committed C W p req env x = some c) :
    replay c = received C W p req env x ↔ req.rawMode = false ∧ x.panics = none := by
  obtain rfl := captured_of_committed h
  unfold replay captured received
  rcases x.panics with _ | _ | n
  · -- no panic: the content type decides
    simp only [and_true]
    constructor
    · intro heq
      cases hraw : req.rawMode with
      | false => rfl
      | true =>
        have htype : (written C W p req env x).contentType ≠ jsonType := answer_raw hraw
        exact absurd (congrArg Response.contentType heq).symm htype
    · intro hraw
      have hjson : (written C W p req env x).contentType = jsonType ∧
          (written C W p req env x).errnHeader = none := answer_json hraw
      rw [← hjson.1, ← hjson.2]
  · -- nothing was written: the status is 200 in the cache and 500 for the client
    refine iff_of_false (fun heq => ?_) (by simp)
    have hstatus := congrArg Response.status heq
    simp at hstatus
  · -- the client's body ends with the text of the recovery
    refine iff_of_false (fun heq => ?_) (by simp)
    have hbody := congrArg Response.body heq
    exact recoverText_ne_nil (List.append_right_eq_self.mp hbody.symm)

/-- Two accepted requests with one key and hash, of which the second is answered with the reply `c`
that the first committed. -/
structure Served (C : Codec) (W : World) (p : Principal) (first second : HttpRequest)
    (env₁ env₂ : Envelope) (x : Execution) (c : CachedReply) : Prop where
  acceptedFirst : accepted C first = some env₁
  acceptedSecond : accepted C second = some env₂
  commits : committed C W p first env₁ x = some c
  sameHash : C.sha256 second.body = C.sha256 first.body

lemma envelopeOf_of_accepted (h : accepted C req = some env) : envelopeOf C req = some env :=
  (filter_eq_some_iff.mp h).1

/-- **A replay repeats the original answer, to the same request**, exactly if the first request is
JSON, its handler does not panic, and the second is JSON or names the target of the first. -/
theorem replay_faithful_iff (C : Codec) (W : World) (p : Principal) (first second : HttpRequest)
    (env₁ env₂ : Envelope) (x : Execution) (c : CachedReply)
    (h : Served C W p first second env₁ env₂ x c)
    (hsha : C.sha256 second.body = C.sha256 first.body → second.body = first.body) :
    (designated env₂ = designated env₁ ∧ second.body = first.body ∧
        replay c = received C W p first env₁ x) ↔
      first.rawMode = false ∧ x.panics = none ∧
        (second.rawMode = false ∨ inHeaders second = designated env₁) := by
  have hbody := hsha h.sameHash
  rw [replay_eq_received_iff h.commits]
  have h₁ := envelopeOf_of_accepted h.acceptedFirst
  have h₂ := envelopeOf_of_accepted h.acceptedSecond
  unfold envelopeOf at h₁ h₂
  constructor
  · rintro ⟨htarget, -, hraw, hpanic⟩
    refine ⟨hraw, hpanic, ?_⟩
    cases hraw₂ : second.rawMode with
    | false => exact .inl rfl
    | true =>
      rw [hraw₂, if_pos rfl] at h₂
      obtain rfl := some.inj h₂
      exact .inr htarget
  · rintro ⟨hraw, hpanic, hsecond⟩
    refine ⟨?_, hbody, hraw, hpanic⟩
    cases hraw₂ : second.rawMode with
    | false =>
      -- the same document decodes to the same envelope
      rw [hraw₂, if_neg Bool.false_ne_true, hbody] at h₂
      rw [hraw, if_neg Bool.false_ne_true, h₂] at h₁
      rw [some.inj h₁]
    | true =>
      rw [hraw₂, if_pos rfl] at h₂
      obtain rfl := some.inj h₂
      exact hsecond.resolve_left (by rw [hraw₂]; decide)

/-! ## Two replies -/

def quickReply (panics : Option Panic) : Execution :=
  ⟨⟨none, none, none⟩, 0, "", fun _ => .ok { body := [7] }, panics⟩

def jsonOrder : HttpRequest := { body := [1] }

def rawOrder : HttpRequest :=
  { contentType := octetType, routingKeyHeader := "CANCEL", body := [1] }

theorem jsonOrder_replayed :
    Served toyCodec asciiWorld webUser jsonOrder jsonOrder { routingKey := "NEW" }
        { routingKey := "NEW" } (quickReply none) ⟨200, [7]⟩ ∧
      replay ⟨200, [7]⟩ =
        received toyCodec asciiWorld webUser jsonOrder { routingKey := "NEW" } (quickReply none) := by
  have hserved : Served toyCodec asciiWorld webUser jsonOrder jsonOrder { routingKey := "NEW" }
      { routingKey := "NEW" } (quickReply none) ⟨200, [7]⟩ := ⟨rfl, rfl, rfl, rfl⟩
  exact ⟨hserved, ((replay_faithful_iff _ _ _ _ _ _ _ _ _ hserved fun _ => rfl).mpr
    ⟨by decide, rfl, .inl (by decide)⟩).2.2⟩

theorem replays_differ :
    (Served toyCodec asciiWorld webUser jsonOrder rawOrder { routingKey := "NEW" }
        { routingKey := "CANCEL" } (quickReply none) ⟨200, [7]⟩ ∧
      designated { routingKey := "CANCEL" } ≠ designated { routingKey := "NEW" }) ∧
    (Served toyCodec asciiWorld webUser rawOrder rawOrder { routingKey := "CANCEL" }
        { routingKey := "CANCEL" } (quickReply none) ⟨200, [7]⟩ ∧
      replay ⟨200, [7]⟩ ≠ received toyCodec asciiWorld webUser rawOrder { routingKey := "CANCEL" }
        (quickReply none)) ∧
    (Served toyCodec asciiWorld webUser jsonOrder jsonOrder { routingKey := "NEW" }
        { routingKey := "NEW" } (quickReply (some .beforeHeader)) ⟨200, []⟩ ∧
      replay ⟨200, []⟩ ≠ received toyCodec asciiWorld webUser jsonOrder { routingKey := "NEW" }
        (quickReply (some .beforeHeader))) := by
  refine ⟨⟨⟨rfl, rfl, rfl, rfl⟩, by decide⟩, ⟨⟨rfl, rfl, rfl, rfl⟩, by decide +kernel⟩,
    ⟨⟨rfl, rfl, rfl, rfl⟩, by decide +kernel⟩⟩

end Wtg.Api.Replay
