import Wtg.Price.Pushdata

/-! # The forwarder's publishers

`flushSplit` of `cmd/quote-forwarder/main.go` over the publishers of `publisher.go`: a batch that
the broker's record cannot hold is halved and published again. `forwarded_once_iff` says for each
mode which batches reach each transport once. -/

namespace Wtg.Price.Forwarder

open Price.Pushdata Quote.Envelope List

variable {R : Type*}

inductive Mode
  | broker
  | grpc
  | both
  deriving DecidableEq

/-- The envelopes handed to each transport, in order. -/
structure Sent (R : Type*) where
  broker : List (JSONEnvelope R) := []
  grpc : List (JSONEnvelope R) := []
  deriving DecidableEq

inductive PublishErr
  | encode (err : PushErr)
  | transport
  deriving DecidableEq

def encodeAll (json : Json R) : List (JSONEnvelope R) → Except PushErr (List UInt8)
  | [env] => encodePushdataV1 json env
  | envs => encodePushdataBatch json envs

variable (json : Json R) (mq : List UInt8 → Bool)

/-- `brokerPublisher.Publish`; `mq` says whether `publishBroadcast` succeeds. -/
def brokerPublish (s : Sent R) (envs : List (JSONEnvelope R)) : Sent R × Option PublishErr :=
  match encodeAll json envs with
  | .error err => (s, some (.encode err))
  | .ok wire =>
    ({ s with broker := s.broker ++ envs }, if mq wire then none else some .transport)

/-- `grpcPublisher.Publish` on a stream whose sends succeed. -/
def grpcPublish (s : Sent R) : List (JSONEnvelope R) → Sent R × Option PublishErr
  | [] => (s, none)
  | env :: envs =>
    match json.marshal env with
    | .error text => (s, some (.encode (.json text)))
    | .ok _ => grpcPublish { s with grpc := s.grpc ++ [env] } envs

def publish (s : Sent R) (envs : List (JSONEnvelope R)) : Mode → Sent R × Option PublishErr
  | .broker => brokerPublish json mq s envs
  | .grpc => grpcPublish json s envs
  | .both =>
    let first := brokerPublish json mq s envs
    let second := grpcPublish json first.1 envs
    (second.1, first.2.or second.2)

def flushSplit (mode : Mode) (s : Sent R) (envs : List (JSONEnvelope R)) : Sent R :=
  if envs = [] then s
  else
    let (s', err) := publish json mq s envs mode
    if err = some (.encode .payloadTooLong) ∧ 1 < envs.length then
      let mid := envs.length / 2
      flushSplit mode (flushSplit mode s' (envs.take mid)) (envs.drop mid)
    else s'
termination_by envs.length
decreasing_by
  · rw [List.length_take]
    omega
  · rw [List.length_drop]
    omega

def Fits (env : JSONEnvelope R) : Bool := (encodePushdataV1 json env).toBool

/-- Every envelope can be marshalled. -/
abbrev Marshalled (envs : List (JSONEnvelope R)) : Prop :=
  ∀ env ∈ envs, ∃ body, json.marshal env = .ok body

variable {json mq} {envs : List (JSONEnvelope R)}

lemma grpcPublish_ok : ∀ {envs : List (JSONEnvelope R)} {s : Sent R},
    Marshalled json envs → grpcPublish json s envs = ({ s with grpc := s.grpc ++ envs }, none)
  | [], s, _ => by simp [grpcPublish]
  | env :: envs, s, h => by
    obtain ⟨body, hbody⟩ := h env List.mem_cons_self
    rw [grpcPublish, hbody]
    simp only
    rw [grpcPublish_ok fun e he => h e (List.mem_cons_of_mem _ he)]
    simp

lemma exists_mapM : ∀ {envs : List (JSONEnvelope R)},
    Marshalled json envs → ∃ bodies, envs.mapM json.marshal = .ok bodies
  | [], _ => ⟨[], rfl⟩
  | env :: envs, h => by
    obtain ⟨body, hbody⟩ := h env List.mem_cons_self
    obtain ⟨bodies, hbodies⟩ := exists_mapM fun e he => h e (List.mem_cons_of_mem _ he)
    refine ⟨body :: bodies, ?_⟩
    rw [List.mapM_cons, hbody, hbodies]
    rfl

lemma fits_iff {env : JSONEnvelope R} {body : List UInt8} (h : json.marshal env = .ok body) :
    Fits json env = true ↔ body.length ≤ maxPushLen := by
  rw [Fits, encodePushdataV1, h]
  dsimp only [encodePushdata]
  split_ifs <;> simp [Except.toBool] <;> omega

/-- What is published in one record fits one by one, and an envelope refused alone does not. -/
lemma encodeAll_cases (hne : envs ≠ []) (h : Marshalled json envs) :
    (∃ wire, encodeAll json envs = .ok wire) ∧ envs.filter (Fits json) = envs ∨
      encodeAll json envs = .error .payloadTooLong ∧
        (envs.length ≤ 1 → envs.filter (Fits json) = []) := by
  match envs, hne with
  | [env], _ =>
    obtain ⟨body, hbody⟩ := h env List.mem_cons_self
    have hfits := fits_iff hbody
    rw [encodeAll, encodePushdataV1, hbody]
    dsimp only [encodePushdata]
    split_ifs with hlong
    · exact .inr ⟨rfl, fun _ => by simp [hfits, hlong]⟩
    · exact .inl ⟨⟨_, rfl⟩, by simp [hfits, not_lt.mp hlong]⟩
  | e :: e' :: rest, _ =>
    obtain ⟨bodies, hbodies⟩ := exists_mapM h
    have hall : json.marshalAll (e :: e' :: rest) = .ok (Json.array bodies) := by
      rw [Json.marshalAll, hbodies]
      rfl
    rw [encodeAll, encodePushdataBatch, hall]
    dsimp only [encodePushdata]
    split_ifs with hlong
    · exact .inr ⟨rfl, fun hone => by simp at hone⟩
    · refine .inl ⟨⟨_, rfl⟩, List.filter_eq_self.mpr fun env henv => ?_⟩
      obtain ⟨part, hpart, hok⟩ := exists_part hbodies env henv
      exact (fits_iff hok).mpr ((length_le_array hpart).trans (not_lt.mp hlong))
    · simp

lemma publish_ok (mq : List UInt8 → Bool) {wire : List UInt8}
    (henc : encodeAll json envs = .ok wire) (h : Marshalled json envs) (mode : Mode) (s : Sent R) :
    (publish json mq s envs mode).1 =
        ⟨s.broker ++ if mode = .grpc then [] else envs,
          s.grpc ++ if mode = .broker then [] else envs⟩ ∧
      (publish json mq s envs mode).2 ≠ some (.encode .payloadTooLong) := by
  cases mode <;> by_cases hmq : mq wire = true <;>
    simp [publish, brokerPublish, henc, grpcPublish_ok h, hmq]

lemma publish_tooLong (mq : List UInt8 → Bool)
    (henc : encodeAll json envs = .error .payloadTooLong)
    (h : Marshalled json envs) (mode : Mode) (s : Sent R) :
    (publish json mq s envs mode).1 = ⟨s.broker, s.grpc ++ if mode = .broker then [] else envs⟩ ∧
      ((publish json mq s envs mode).2 = some (.encode .payloadTooLong) ↔ mode ≠ .grpc) := by
  cases mode <;> simp [publish, brokerPublish, henc, grpcPublish_ok h]

/-- The broker gets the envelopes that fit and gRPC gets all, in order, unless both are published to
and the batch has to be split. -/
lemma flushSplit_eq {mode : Mode} {s : Sent R} (h : Marshalled json envs)
    (hmode : mode = .both → 1 < envs.length → encodeAll json envs ≠ .error .payloadTooLong) :
    flushSplit json mq mode s envs =
      { broker := s.broker ++ if mode = .grpc then [] else envs.filter (Fits json)
        grpc := s.grpc ++ if mode = .broker then [] else envs } := by
  fun_induction flushSplit json mq mode s envs
  case case1 s => simp
  case case2 s envs hne s' err hpub hlong mid ih₁ _ ih₂ =>
    rcases encodeAll_cases hne h with ⟨⟨wire, henc⟩, -⟩ | ⟨henc, -⟩
    · have hok := (publish_ok mq henc h mode s).2
      rw [hpub] at hok
      exact absurd hlong.1 hok
    · obtain ⟨hs', herr⟩ := publish_tooLong mq henc h mode s
      rw [hpub] at hs' herr
      have hbroker : mode = .broker := by
        have hgrpc := herr.mp hlong.1
        cases mode
        · rfl
        · exact absurd rfl hgrpc
        · exact absurd henc (hmode rfl hlong.2)
      subst hbroker
      obtain rfl : s' = s := by simpa using hs'
      rw [ih₂ (fun env henv => h env (List.mem_of_mem_drop henv)) nofun,
        ih₁ (fun env henv => h env (List.mem_of_mem_take henv)) nofun]
      simp [← List.filter_append]
  case case3 s envs hne s' err hpub hshort =>
    rcases encodeAll_cases hne h with ⟨⟨wire, henc⟩, hfits⟩ | ⟨henc, hfits⟩
    · have hok := (publish_ok mq henc h mode s).1
      rw [hpub] at hok
      rw [hfits]
      exact hok
    · obtain ⟨hs', herr⟩ := publish_tooLong mq henc h mode s
      rw [hpub] at hs' herr
      rw [show s' = _ from hs']
      by_cases hgrpc : mode = .grpc
      · simp [hgrpc]
      · have hone : envs.length ≤ 1 := not_lt.mp fun hlen => hshort ⟨herr.mpr hgrpc, hlen⟩
        simp [hfits hone]

lemma grpcPublish_sublist (json : Json R) : ∀ (envs : List (JSONEnvelope R)) (s : Sent R),
    ∃ handed, (grpcPublish json s envs).1 = { s with grpc := s.grpc ++ handed } ∧ handed <+ envs ∧
      (grpcPublish json s envs).2 ≠ some (.encode .payloadTooLong)
  | [], s => ⟨[], by simp [grpcPublish], .slnil, nofun⟩
  | env :: envs, s => by
    rw [grpcPublish]
    rcases json.marshal env with text | body
    · exact ⟨[], by simp, nil_sublist _, by simp⟩
    · obtain ⟨handed, hs, hsub, herr⟩ :=
        grpcPublish_sublist json envs { s with grpc := s.grpc ++ [env] }
      exact ⟨env :: handed, by simp [hs], hsub.cons_cons env, herr⟩

lemma flushSplit_of_ne {mode : Mode} {s : Sent R} (hne : envs ≠ [])
    (h : (publish json mq s envs mode).2 ≠ some (.encode .payloadTooLong)) :
    flushSplit json mq mode s envs = (publish json mq s envs mode).1 := by
  rw [flushSplit, if_neg hne]
  exact if_neg fun hlong => h hlong.1

/-- An envelope that cannot be marshalled fails the whole batch, and the batch is not split. -/
lemma encodeAll_of_error {env : JSONEnvelope R} (hmem : env ∈ envs) {text : String}
    (h : json.marshal env = .error text) : ∃ text, encodeAll json envs = .error (.json text) := by
  have hall : ∀ bodies, envs.mapM json.marshal ≠ .ok bodies := by
    intro bodies hok
    obtain ⟨part, -, hpart⟩ := exists_part hok env hmem
    rw [h] at hpart
    cases hpart
  match envs, hmem with
  | [e], hmem =>
    obtain rfl := mem_singleton.mp hmem
    exact ⟨text, by rw [encodeAll, encodePushdataV1, h]⟩
  | e :: e' :: rest, _ =>
    rcases hbodies : (e :: e' :: rest).mapM json.marshal with text | bodies
    · exact ⟨text, by simp [encodeAll, encodePushdataBatch, Json.marshalAll, hbodies, Except.map]⟩
    · exact absurd hbodies (hall bodies)

lemma publish_of_error (mq : List UInt8 → Bool) {mode : Mode} (s : Sent R) {text : String}
    (h : encodeAll json envs = .error (.json text)) (hmode : mode ≠ .grpc) :
    ∃ handed, (publish json mq s envs mode).1 = { s with grpc := s.grpc ++ handed } ∧
      handed <+ envs ∧ (publish json mq s envs mode).2 ≠ some (.encode .payloadTooLong) := by
  cases mode with
  | broker => exact ⟨[], by simp [publish, brokerPublish, h], nil_sublist _,
      by simp [publish, brokerPublish, h]⟩
  | grpc => exact absurd rfl hmode
  | both =>
    obtain ⟨handed, hs, hsub, -⟩ := grpcPublish_sublist json envs s
    exact ⟨handed, by simpa [publish, brokerPublish, h] using hs, hsub,
      by simp [publish, brokerPublish, h]⟩

/-- A batch that is split in mode `both` has been handed to gRPC already. -/
lemma flushSplit_both (mq : List UInt8 → Bool) (s : Sent R) (h : Marshalled json envs)
    (henc : encodeAll json envs = .error .payloadTooLong) (hlen : 1 < envs.length) :
    flushSplit json mq .both s envs = flushSplit json mq .both
      (flushSplit json mq .both ⟨s.broker, s.grpc ++ envs⟩ (envs.take (envs.length / 2)))
      (envs.drop (envs.length / 2)) := by
  obtain ⟨hs, herr⟩ := publish_tooLong mq henc h .both s
  rw [flushSplit, if_neg (ne_nil_of_length_pos (by omega))]
  dsimp only
  rw [if_pos ⟨herr.mpr nofun, hlen⟩, hs]
  rfl

/-- In mode `both` gRPC is handed at least the whole batch, and twice if the batch is split. -/
lemma length_le_grpc (mq : List UInt8 → Bool) (s : Sent R) (envs : List (JSONEnvelope R))
    (h : Marshalled json envs) :
    s.grpc.length + envs.length ≤ (flushSplit json mq .both s envs).grpc.length ∧
      (encodeAll json envs = .error .payloadTooLong → 1 < envs.length →
        s.grpc.length + 2 * envs.length ≤ (flushSplit json mq .both s envs).grpc.length) := by
  by_cases hsplit : encodeAll json envs = .error .payloadTooLong ∧ 1 < envs.length
  · have hfirst := (length_le_grpc mq ⟨s.broker, s.grpc ++ envs⟩ (envs.take (envs.length / 2))
      fun env henv => h env (mem_of_mem_take henv)).1
    have hsecond := (length_le_grpc mq
      (flushSplit json mq .both ⟨s.broker, s.grpc ++ envs⟩ (envs.take (envs.length / 2)))
      (envs.drop (envs.length / 2)) fun env henv => h env (mem_of_mem_drop henv)).1
    rw [flushSplit_both mq s h hsplit.1 hsplit.2]
    rw [length_append, length_take] at hfirst
    rw [length_drop] at hsecond
    exact ⟨by omega, fun _ _ => by omega⟩
  · refine ⟨?_, fun henc hlen => absurd ⟨henc, hlen⟩ hsplit⟩
    rw [flushSplit_eq h fun _ hlen henc => hsplit ⟨henc, hlen⟩]
    simp
termination_by envs.length
decreasing_by
  · rw [length_take]
    omega
  · rw [length_drop]
    omega

/-- Every transport of the mode is handed each envelope at most once and in order, and the broker
just those whose own encoding fits. -/
def ForwardedOnce (json : Json R) (mq : List UInt8 → Bool) (mode : Mode) (s : Sent R)
    (envs : List (JSONEnvelope R)) : Prop :=
  (flushSplit json mq mode s envs).broker =
      s.broker ++ (if mode = .grpc then [] else envs.filter (Fits json)) ∧
    ∃ handed, (flushSplit json mq mode s envs).grpc = s.grpc ++ handed ∧ handed <+ envs

/-- **Which batches are forwarded once**: for gRPC all; for the broker those that can be marshalled,
or of which no envelope fits; and for both, of these, the ones that need not be split. -/
theorem forwarded_once_iff (json : Json R) (mq : List UInt8 → Bool) (mode : Mode) (s : Sent R)
    (envs : List (JSONEnvelope R)) :
    ForwardedOnce json mq mode s envs ↔ mode = .grpc ∨
      ((∀ env ∈ envs, ∃ body, json.marshal env = .ok body) ∨
        ∀ env ∈ envs, Fits json env = false) ∧
      (mode = .both → 1 < envs.length → encodeAll json envs ≠ .error .payloadTooLong) := by
  by_cases hnil : envs = []
  · simp [hnil, ForwardedOnce, flushSplit]
  by_cases hgrpc : mode = .grpc
  · subst hgrpc
    obtain ⟨handed, hs, hsub, herr⟩ := grpcPublish_sublist json envs s
    have hne : (publish json mq s envs .grpc).2 ≠ some (.encode .payloadTooLong) := herr
    rw [ForwardedOnce, (flushSplit_of_ne hnil hne).trans hs]
    simpa using hsub
  rw [or_iff_right hgrpc, ForwardedOnce, if_neg hgrpc]
  by_cases h : Marshalled json envs
  · rw [and_iff_right (Or.inl h)]
    constructor
    · rintro ⟨-, handed, hhanded, hsub⟩ rfl hlen henc
      have htwice := (length_le_grpc mq s envs h).2 henc hlen
      rw [hhanded, length_append] at htwice
      have := hsub.length_le
      omega
    · intro hmode
      rw [flushSplit_eq h hmode, if_neg hgrpc]
      refine ⟨rfl, _, rfl, ?_⟩
      split_ifs
      · exact nil_sublist _
      · exact .refl _
  · obtain ⟨env, hmem, text, hbad⟩ : ∃ env ∈ envs, ∃ text, json.marshal env = .error text := by
      by_contra hnone
      refine h fun env hmem => ?_
      rcases hm : json.marshal env with text | body
      · exact absurd ⟨env, hmem, text, hm⟩ hnone
      · exact ⟨body, rfl⟩
    obtain ⟨text, henc⟩ := encodeAll_of_error hmem hbad
    obtain ⟨handed, hs, hsub, herr⟩ := publish_of_error mq s henc hgrpc
    rw [flushSplit_of_ne hnil herr, hs, or_iff_right h, self_eq_append_right, filter_eq_nil_iff]
    simp only [Bool.not_eq_true, henc]
    exact ⟨fun hfits => ⟨hfits.1, nofun⟩, fun hfits => ⟨hfits.1, handed, rfl, hsub⟩⟩

lemma flushSplit_of_publish {mode : Mode} {s s' : Sent R} {env : JSONEnvelope R}
    (h : publish json mq s [env] mode = (s', none)) : flushSplit json mq mode s [env] = s' := by
  rw [flushSplit, h]
  simp

/-- Envelopes of `n` bytes. -/
def sized (n : ℕ) : Json ℤ := { tinyJson 0 1 0 with marshal := fun _ => .ok (List.replicate n 65) }

theorem forwarded_once_iff_two :
    ForwardedOnce (sized 1000) (fun _ => true) .broker {} (twoEnvelopes 0 1 0) ∧
      ForwardedOnce (sized 600) (fun _ => true) .both {} (twoEnvelopes 0 1 0) := by
  have hbroker := forwarded_once_iff (sized 1000) (fun _ => true) .broker {} (twoEnvelopes 0 1 0)
  have hboth := forwarded_once_iff (sized 600) (fun _ => true) .both {} (twoEnvelopes 0 1 0)
  exact ⟨hbroker.mpr (.inr ⟨.inl fun env _ => ⟨_, rfl⟩, nofun⟩),
    hboth.mpr (.inr ⟨.inl fun env _ => ⟨_, rfl⟩, fun _ _ => by decide +kernel⟩)⟩

/-- Two envelopes that do not fit into one record come to gRPC twice. -/
theorem forwarded_twice :
    flushSplit (sized 1000) (fun _ => true) .both {} (twoEnvelopes 0 1 0) =
      ⟨twoEnvelopes 0 1 0, twoEnvelopes 0 1 0 ++ twoEnvelopes 0 1 0⟩ := by
  have hboth : publish (sized 1000) (fun _ => true) {} (twoEnvelopes 0 1 0) .both =
      (⟨[], twoEnvelopes 0 1 0⟩, some (.encode .payloadTooLong)) := by decide +kernel
  have hfirst : flushSplit (sized 1000) (fun _ => true) .both ⟨[], twoEnvelopes 0 1 0⟩
      [firstEnvelope 0] = ⟨[firstEnvelope 0], twoEnvelopes 0 1 0 ++ [firstEnvelope 0]⟩ :=
    flushSplit_of_publish (by decide +kernel)
  rw [flushSplit, hboth]
  refine (congrArg (flushSplit _ _ _ · [secondEnvelope 1 0]) hfirst).trans ?_
  exact flushSplit_of_publish (by decide +kernel)

end Wtg.Price.Forwarder
