import Mathlib.Data.List.ReduceOption
import Wtg.Lib.Framing
import Wtg.Lib.Utf8

/-! # The raw TCP gateway

`mci-edge-tcp` serves clients that speak fixed-width messages over one long connection. -/

namespace Wtg.Edge.TcpGateway

open Lib Lib.Buffer Lib.Framing List

structure Config where
  listenAddr : String := ""
  upstreamURL : String := ""
  apiUser : String := ""
  apiToken : String := ""
  channel : String := ""
  maxFrame : ℤ := 0
  selectServerIP : String := ""

def Config.fill (cfg : Config) : Config :=
  { cfg with
    channel := if cfg.channel = "" then "HTS" else cfg.channel
    maxFrame := if cfg.maxFrame = 0 then 2 ^ 20 else cfg.maxFrame }

def newServer (cfg : Config) : Except String Config :=
  if cfg.fill.listenAddr = "" then .error "tcp: ListenAddr 필수"
  else if cfg.fill.upstreamURL = "" then .error "tcp: UpstreamURL 필수 (내부 mci-api)"
  else .ok cfg.fill

inductive ReadError
  | eof
  | unexpectedEOF
  | tooLong (n : ℕ) (maxFrame : ℤ)
  deriving DecidableEq

def readFull (n : ℕ) (input : Bytes) : Except ReadError (Bytes × Bytes) :=
  if n ≤ input.length then .ok (input.take n, input.drop n)
  else if input = [] then .error .eof
  else .error .unexpectedEOF

def readFrame (maxFrame : ℤ) (input : Bytes) : Except ReadError (Bytes × Bytes) :=
  match readFull 4 input with
  | .error e => .error e
  | .ok (hdr, rest) =>
    let n := ofBigEndian hdr
    if n = 0 then .ok ([], rest)
    else if (n : ℤ) > maxFrame then .error (.tooLong n maxFrame)
    else readFull n rest

def writeFrame (payload : Bytes) : Bytes := frame payload

/-- The lengths `readFrame` lets through: a heartbeat's in any case. -/
def allowed (maxFrame : ℤ) (n : ℕ) : Bool := n = 0 ∨ (n : ℤ) ≤ maxFrame

lemma readFull_toOption (n : ℕ) (input : Bytes) : (readFull n input).toOption =
    if n ≤ input.length then some (input.take n, input.drop n) else none := by
  unfold readFull
  split_ifs <;> rfl

lemma readFrame_toOption (maxFrame : ℤ) (input : Bytes) :
    (readFrame maxFrame input).toOption = unframe (allowed maxFrame) input := by
  unfold readFrame unframe
  by_cases hfour : 4 ≤ input.length
  · have hhead : readFull 4 input = .ok (input.take 4, input.drop 4) := if_pos hfour
    simp only [hhead]
    generalize ofBigEndian (input.take 4) = n
    generalize input.drop 4 = rest
    by_cases hzero : n = 0
    · subst hzero
      have hall : 4 ≤ input.length ∧ allowed maxFrame 0 = true ∧ 0 ≤ rest.length :=
        ⟨hfour, rfl, Nat.zero_le _⟩
      rw [if_pos rfl, if_pos hall]
      rfl
    · by_cases hmax : (n : ℤ) > maxFrame
      · have hrefused : allowed maxFrame n = false := by simp [allowed, hzero, hmax]
        simp [hzero, hmax, hrefused, Except.toOption]
      · have hallowed : allowed maxFrame n = true := by simp [allowed, not_lt.mp hmax]
        simp only [if_neg hzero, if_neg hmax, readFull_toOption, hfour, hallowed, true_and]
  · have hhead := readFull_toOption 4 input
    rw [if_neg hfour] at hhead
    simp only [hfour, false_and, if_false]
    rcases hread : readFull 4 input with e | r
    · rfl
    · rw [hread] at hhead
      cases hhead

def fcSelectServer : UInt8 := 0x01
def fcCrypto : UInt8 := 0x02
def fcCookie : UInt8 := 0x42
def selectServerIPLen : ℕ := 24
def thFlagRHI : UInt8 := 0x01
def thLen : ℕ := 3
def rhLen : ℕ := 37
def thFlagsMax : UInt8 := 0x20

inductive Kind
  | heartbeat
  | selectServer
  | crypto
  | shortHeader
  | cookie
  | forwarded (header body : Bytes)
  deriving DecidableEq

def hdrLen (flags : UInt8) : ℕ := if flags &&& thFlagRHI ≠ 0 then thLen + rhLen else thLen

def classify (payload : Bytes) : Kind :=
  if payload.length = 0 then .heartbeat
  else if payload.length = 3 ∧ payload.getD 2 0 = fcSelectServer then .selectServer
  else if 3 ≤ payload.length ∧ payload.getD 2 0 = fcCrypto then .crypto
  else if thLen ≤ payload.length ∧ payload.getD 0 0 < thFlagsMax then
    if payload.length < hdrLen (payload.getD 0 0) then .shortHeader
    else if payload.getD 2 0 = fcCookie then .cookie
    else .forwarded (payload.take (hdrLen (payload.getD 0 0)))
      (payload.drop (hdrLen (payload.getD 0 0)))
  else .forwarded [] payload

def replySelectServer (cfg : Config) (localHost : Option String) (reqTH : Bytes) : Bytes :=
  let ip := if cfg.selectServerIP = "" then localHost.getD "" else cfg.selectServerIP
  let ipField := (padCopy selectServerIPLen (Utf8.encode ip.toList)).toList
  reqTH.take 3 ++ ipField ++ ipField

def hexPrefix (b : Bytes) (n : ℕ) : String :=
  String.ofList ([' '].intercalate ((b.take n).map fun x =>
    [Nat.digitChar (x.toNat / 16), Nat.digitChar (x.toNat % 16)]))

def sanitizeTrxc (b : Bytes) : Except String Bytes :=
  let trxc := (b.dropWhile (· = 0x20)).takeWhile fun c => 0x20 < c ∧ c < 0x7f
  if trxc = [] then .error ("COMHDR.trxc 추출 실패 (hex=" ++ hexPrefix b 16 ++ ")")
  else .ok trxc

structure Request where
  url : String
  headers : List (String × Bytes)
  body : Bytes
  deriving DecidableEq

def trimSlashes (s : String) : String := String.ofList (s.toList.rdropWhile (· = '/'))

def request (cfg : Config) (trxc payload : Bytes) : Request where
  url := trimSlashes cfg.upstreamURL ++ "/v1/tx"
  headers :=
    [("Content-Type", Utf8.encode "application/octet-stream".toList), ("X-WTG-Alias", trxc),
      ("X-WTG-Channel", Utf8.encode cfg.channel.toList)] ++
    (if cfg.apiToken ≠ "" then
      [("Authorization", Utf8.encode ("Bearer " ++ cfg.apiToken).toList)]
    else if cfg.apiUser ≠ "" then [("X-WTG-User", Utf8.encode cfg.apiUser.toList)] else [])
  body := payload

/-- The API: a complete reply body, or the error of a call that failed. -/
abbrev Upstream := Request → Except String Bytes

def ask (cfg : Config) (upstream : Upstream) (payload : Bytes) : Except String Bytes :=
  if payload.length < 16 then
    .error ("전문 길이 부족: " ++ toString payload.length ++ "B (< COMHDR.trxc 16B)")
  else match sanitizeTrxc (payload.take 16) with
    | .error e => .error e
    | .ok trxc => upstream (request cfg trxc payload)

def forward (cfg : Config) (upstream : Upstream) (payload : Bytes) : Except String Bytes :=
  match ask cfg upstream payload with
  | .error e => .error e
  | .ok body => .ok (body.take cfg.maxFrame.toNat)

def errorBody (e : String) : Bytes := Utf8.encode ("WTG-EDGE-TCP-ERROR: " ++ e).toList

def bodyOf : Except String Bytes → Bytes
  | .ok r => r
  | .error e => errorBody e

/-! ## One connection -/

section

variable (cfg : Config) (localHost : Option String) (upstream : ℕ → Upstream)

/-- The payload the loop writes for a frame, if it writes one, with `call` for the messages. -/
def answer (call : Bytes → Except String Bytes) (payload : Bytes) : Option Bytes :=
  match classify payload with
  | .heartbeat => some []
  | .selectServer => some (replySelectServer cfg localHost payload)
  | .crypto | .shortHeader | .cookie => none
  | .forwarded header body => some (header ++ bodyOf (call body))

def respond (i : ℕ) (payload : Bytes) : Option Bytes :=
  answer cfg localHost (forward cfg (upstream i)) payload

/-- The bytes written while the input is read, from the `i`-th frame on. -/
def handleConn (i : ℕ) (input : Bytes) : Bytes :=
  match h : readFrame cfg.maxFrame input with
  | .error _ => []
  | .ok (payload, rest) =>
    have : rest.length < input.length := by
      have hread := readFrame_toOption cfg.maxFrame input
      rw [h] at hread
      exact (length_of_unframe hread.symm).2
    ((respond cfg localHost upstream i payload).elim [] writeFrame) ++ handleConn (i + 1) rest
termination_by input.length

def framesOf (input : Bytes) : List Bytes := (unframeAll (allowed cfg.maxFrame) input).1

def answers (f : ℕ → Bytes → Option Bytes) (i : ℕ) (ps : List Bytes) : List (Option Bytes) :=
  (ps.zipIdx i).map fun q => f q.2 q.1

@[simp] lemma answers_cons (f : ℕ → Bytes → Option Bytes) (i : ℕ) (p : Bytes) (ps : List Bytes) :
    answers f i (p :: ps) = f i p :: answers f (i + 1) ps := rfl

def payloads (f : ℕ → Bytes → Option Bytes) (i : ℕ) (input : Bytes) : List Bytes :=
  (answers f i (framesOf cfg input)).reduceOption

lemma handleConn_eq (i : ℕ) (input : Bytes) : handleConn cfg localHost upstream i input =
    (payloads cfg (respond cfg localHost upstream) i input).flatMap writeFrame := by
  have hread := readFrame_toOption cfg.maxFrame input
  rw [handleConn]
  split
  · rename_i e he
    rw [he] at hread
    rw [payloads, framesOf, unframeAll_of_none hread.symm]
    rfl
  · rename_i payload rest hok
    rw [hok] at hread
    have hrest : rest.length < input.length := (length_of_unframe hread.symm).2
    have ih := handleConn_eq (i + 1) rest
    have hframes : framesOf cfg input = payload :: framesOf cfg rest := by
      rw [framesOf, unframeAll_of_some hread.symm, framesOf]
    rw [payloads, hframes, answers_cons]
    show (respond cfg localHost upstream i payload).elim [] writeFrame ++
      handleConn cfg localHost upstream (i + 1) rest = _
    rw [ih, payloads]
    rcases respond cfg localHost upstream i payload with _ | out
    · rw [reduceOption_cons_of_none]
      rfl
    · rw [reduceOption_cons_of_some, flatMap_cons]
      rfl
termination_by input.length

def owed (i : ℕ) (payload : Bytes) : Option Bytes :=
  answer cfg localHost (ask cfg (upstream i)) payload

/-- The client reads from the output what its frames are owed, in their order and nothing else, and
an empty frame is owed to heartbeats only. -/
structure Transparent (input : Bytes) : Prop where
  reads : unframeAll (fun _ => true) (handleConn cfg localHost upstream 0 input) =
    (payloads cfg (owed cfg localHost upstream) 0 input, [])
  empty : ∀ i p, (framesOf cfg input)[i]? = some p → owed cfg localHost upstream i p = some [] →
    classify p = .heartbeat

/-- A message whose reply passes whole: it is not cut, leaves something to send, and its length
fits in front of the frame. -/
structure Passes (i : ℕ) (header body : Bytes) : Prop where
  uncut : ∀ r, ask cfg (upstream i) body = .ok r → r.length ≤ cfg.maxFrame.toNat
  nonempty : header ++ bodyOf (ask cfg (upstream i) body) ≠ []
  fits : (header ++ bodyOf (ask cfg (upstream i) body)).length < 2 ^ 32

end

variable {cfg : Config} {localHost : Option String} {upstream : ℕ → Upstream}
  {f g : ℕ → Bytes → Option Bytes}

lemma mem_payloads {input a : Bytes} : a ∈ payloads cfg f 0 input ↔
    ∃ i p, (framesOf cfg input)[i]? = some p ∧ f i p = some a := by
  rw [payloads, reduceOption_mem_iff, answers, mem_map]
  constructor
  · rintro ⟨⟨p, i⟩, hmem, ha⟩
    exact ⟨i, p, mem_zipIdx_iff_getElem?.mp hmem, ha⟩
  · rintro ⟨i, p, hp, ha⟩
    exact ⟨(p, i), mem_zipIdx_iff_getElem?.mpr hp, ha⟩

lemma eq_of_answers (hsome : ∀ i p, (f i p).isSome = (g i p).isSome) :
    ∀ {i : ℕ} {ps : List Bytes},
      (answers f i ps).reduceOption = (answers g i ps).reduceOption →
        ∀ j p, ps[j]? = some p → f (i + j) p = g (i + j) p
  | _, [], _, _, _, hp => by cases hp
  | i, q :: ps, h, j, p, hp => by
    have hq := hsome i q
    rw [answers_cons, answers_cons] at h
    rcases hf : f i q with _ | a <;> rcases hg : g i q with _ | b <;> rw [hf, hg] at hq h <;>
      try cases hq
    · rw [reduceOption_cons_of_none, reduceOption_cons_of_none] at h
      rcases j with _ | j
      · obtain rfl := Option.some.inj hp
        rw [add_zero, hf, hg]
      · rw [show i + (j + 1) = i + 1 + j by omega]
        exact eq_of_answers hsome h j p hp
    · rw [reduceOption_cons_of_some, reduceOption_cons_of_some] at h
      obtain ⟨hab, htail⟩ := cons.inj h
      rcases j with _ | j
      · obtain rfl := Option.some.inj hp
        rw [add_zero, hf, hg, hab]
      · rw [show i + (j + 1) = i + 1 + j by omega]
        exact eq_of_answers hsome htail j p hp

lemma bodyOf_forward {u : Upstream} {body : Bytes}
    (h : ∀ r, ask cfg u body = .ok r → r.length ≤ cfg.maxFrame.toNat) :
    bodyOf (forward cfg u body) = bodyOf (ask cfg u body) := by
  unfold forward
  rcases hask : ask cfg u body with e | r
  · rfl
  · exact take_of_length_le (h r hask)

lemma length_bodyOf_forward (u : Upstream) (body : Bytes) :
    (bodyOf (forward cfg u body)).length ≤ (bodyOf (ask cfg u body)).length := by
  unfold forward
  rcases ask cfg u body with e | r
  · exact le_rfl
  · exact length_take_le' _ _

lemma answer_forwarded {p header body : Bytes} (h : classify p = .forwarded header body)
    (call : Bytes → Except String Bytes) :
    answer cfg localHost call p = some (header ++ bodyOf (call body)) := by
  rw [answer, h]

lemma answer_cases (cfg : Config) (localHost : Option String) (p : Bytes) :
    (∃ header body, classify p = .forwarded header body ∧
      ∀ call, answer cfg localHost call p = some (header ++ bodyOf (call body))) ∨
    ((∀ header body, classify p ≠ .forwarded header body) ∧
      ∃ own, (∀ call, answer cfg localHost call p = own) ∧ (∀ a, own = some a → a.length < 2 ^ 32) ∧
        (own = some [] → classify p = .heartbeat)) := by
  unfold answer
  rcases classify p with _ | _ | _ | _ | _ | ⟨header, body⟩
  case forwarded => exact .inl ⟨header, body, rfl, fun _ => rfl⟩
  case heartbeat =>
    refine .inr ⟨nofun, some [], fun _ => rfl, fun a ha => ?_, fun _ => rfl⟩
    rw [← Option.some.inj ha]
    decide
  case selectServer =>
    refine .inr ⟨nofun, _, fun _ => rfl, fun a ha => ?_, fun hnil => ?_⟩
    · rw [← Option.some.inj ha]
      simp only [replySelectServer, length_append, length_take,
        List.Vector.toList_length, selectServerIPLen]
      omega
    · have hlen := congrArg length (Option.some.inj hnil)
      simp only [replySelectServer, length_append, List.Vector.toList_length,
        selectServerIPLen, length_nil] at hlen
      omega
  all_goals exact .inr ⟨nofun, none, fun _ => rfl, nofun, nofun⟩

lemma isSome_respond (i : ℕ) (p : Bytes) : (respond cfg localHost upstream i p).isSome =
    (owed cfg localHost upstream i p).isSome := by
  unfold respond owed
  rcases answer_cases cfg localHost p with ⟨header, body, -, hcall⟩ | ⟨-, own, hown, -, -⟩
  · rw [hcall, hcall]
    rfl
  · rw [hown, hown]

lemma length_respond_le {i : ℕ} {p a : Bytes} (h : respond cfg localHost upstream i p = some a) :
    ∃ b, owed cfg localHost upstream i p = some b ∧ a.length ≤ b.length := by
  unfold respond at h
  unfold owed
  rcases answer_cases cfg localHost p with ⟨header, body, -, hcall⟩ | ⟨-, own, hown, -, -⟩
  · rw [hcall] at h ⊢
    refine ⟨_, rfl, ?_⟩
    rw [← Option.some.inj h, length_append, length_append]
    exact Nat.add_le_add_left (length_bodyOf_forward _ _) _
  · rw [hown] at h ⊢
    exact ⟨a, h, le_rfl⟩

variable {input : Bytes}

lemma unframeAll_handleConn
    (h : ∀ a ∈ payloads cfg (respond cfg localHost upstream) 0 input, a.length < 2 ^ 32) :
    unframeAll (fun _ => true) (handleConn cfg localHost upstream 0 input) =
      (payloads cfg (respond cfg localHost upstream) 0 input, []) := by
  rw [handleConn_eq]
  exact unframeAll_flatMap_frame fun a ha => ⟨h a ha, rfl⟩

lemma Transparent.length_lt (h : Transparent cfg localHost upstream input) {b : Bytes}
    (hb : b ∈ payloads cfg (owed cfg localHost upstream) 0 input) : b.length < 2 ^ 32 := by
  have hread := congrArg Prod.fst h.reads
  dsimp only at hread
  rw [← hread] at hb
  exact length_lt_of_mem_unframeAll _ b hb

lemma Transparent.respond_eq (h : Transparent cfg localHost upstream input) {i : ℕ} {p : Bytes}
    (hp : (framesOf cfg input)[i]? = some p) :
    respond cfg localHost upstream i p = owed cfg localHost upstream i p := by
  have hfits : ∀ a ∈ payloads cfg (respond cfg localHost upstream) 0 input, a.length < 2 ^ 32 := by
    intro a ha
    obtain ⟨j, q, hq, ha⟩ := mem_payloads.mp ha
    obtain ⟨b, hb, hle⟩ := length_respond_le ha
    exact hle.trans_lt (h.length_lt (mem_payloads.mpr ⟨j, q, hq, hb⟩))
  have hwritten := unframeAll_handleConn hfits
  rw [h.reads] at hwritten
  have hsame := eq_of_answers isSome_respond (Prod.mk.inj hwritten).1.symm i p hp
  rwa [zero_add] at hsame

lemma owed_of_passes
    (h : ∀ i p header body, (framesOf cfg input)[i]? = some p →
      classify p = .forwarded header body → Passes cfg upstream i header body)
    {i : ℕ} {p : Bytes} (hp : (framesOf cfg input)[i]? = some p) :
    respond cfg localHost upstream i p = owed cfg localHost upstream i p ∧
      (∀ a, owed cfg localHost upstream i p = some a → a.length < 2 ^ 32) ∧
      (owed cfg localHost upstream i p = some [] → classify p = .heartbeat) := by
  unfold respond owed
  rcases answer_cases cfg localHost p with ⟨header, body, hclass, hcall⟩ |
    ⟨-, own, hown, hfits, hnil⟩
  · have hpass := h i p header body hp hclass
    rw [hcall, hcall, bodyOf_forward hpass.uncut]
    refine ⟨rfl, fun a ha => ?_, fun hnil => ?_⟩
    · rw [← Option.some.inj ha]
      exact hpass.fits
    · exact absurd (Option.some.inj hnil) hpass.nonempty
  · rw [hown, hown]
    exact ⟨rfl, hfits, hnil⟩

/-- **The gateway is transparent exactly where replies pass whole**: every reply fits in `MaxFrame`
and leaves a payload to send that is shorter than `2 ^ 32` bytes. -/
theorem transparent_iff_passes (cfg : Config) (localHost : Option String)
    (upstream : ℕ → Upstream) (input : Bytes) : Transparent cfg localHost upstream input ↔
      ∀ i p header body, (framesOf cfg input)[i]? = some p →
        classify p = .forwarded header body → Passes cfg upstream i header body := by
  constructor
  · intro h i p header body hp hclass
    have howed : owed cfg localHost upstream i p =
        some (header ++ bodyOf (ask cfg (upstream i) body)) := answer_forwarded hclass _
    have hsame := h.respond_eq hp
    rw [howed, respond, answer_forwarded hclass] at hsame
    have hbody := append_cancel_left (Option.some.inj hsame)
    refine ⟨fun r hr => ?_, fun hnil => ?_, ?_⟩
    · have hlen := congrArg length hbody
      simp only [forward, hr, bodyOf, length_take] at hlen
      omega
    · rw [hnil] at howed
      rw [h.empty i p hp howed] at hclass
      cases hclass
    · exact h.length_lt (mem_payloads.mpr ⟨i, p, hp, howed⟩)
  · intro h
    have hanswers : payloads cfg (respond cfg localHost upstream) 0 input =
        payloads cfg (owed cfg localHost upstream) 0 input := by
      refine congrArg reduceOption (map_congr_left fun q hq => ?_)
      exact (owed_of_passes h (mem_zipIdx_iff_getElem?.mp hq)).1
    refine ⟨?_, fun i p hp => (owed_of_passes h hp).2.2⟩
    rw [← hanswers]
    refine unframeAll_handleConn fun a ha => ?_
    rw [hanswers] at ha
    obtain ⟨j, p, hp, ha⟩ := mem_payloads.mp ha
    exact (owed_of_passes h hp).2.1 a ha

def plainGateway : Config :=
  Config.fill { listenAddr := ":5021", upstreamURL := "http://127.0.0.1:8080" }

def message : Bytes := List.replicate 16 0x41

lemma framesOf_message : framesOf plainGateway (writeFrame message) = [message] := by
  have hread : unframeAll (allowed plainGateway.maxFrame) ([message].flatMap frame) =
      ([message], []) :=
    unframeAll_flatMap_frame fun p hp => by
      rw [mem_singleton.mp hp]
      decide
  rw [flatMap_singleton] at hread
  rw [framesOf, writeFrame, hread]

lemma ask_message (u : Upstream) :
    ask plainGateway u message = u (request plainGateway message message) := rfl

theorem reply_not_whole :
    handleConn plainGateway none (fun _ _ => .ok []) 0 (writeFrame message) = writeFrame [] ∧
      classify message = .forwarded [] message ∧
      ¬ Transparent plainGateway none (fun _ _ => .ok []) (writeFrame message) ∧
      handleConn plainGateway none (fun _ _ => .ok (List.replicate (2 ^ 20 + 1) 0x41)) 0
        (writeFrame message) = writeFrame (List.replicate (2 ^ 20) 0x41) ∧
      ¬ Transparent plainGateway none (fun _ _ => .ok (List.replicate (2 ^ 20 + 1) 0x41))
        (writeFrame message) := by
  have hclass : classify message = .forwarded [] message := by decide
  have hfirst : (framesOf plainGateway (writeFrame message))[0]? = some message := by
    rw [framesOf_message]
    rfl
  have hlimit : plainGateway.maxFrame.toNat = 2 ^ 20 := by decide
  have hcut : respond plainGateway none (fun _ _ => .ok (replicate (2 ^ 20 + 1) 0x41)) 0
      message = some (replicate (2 ^ 20) 0x41) := by
    rw [respond, answer_forwarded hclass, forward, ask_message]
    simp only [bodyOf, hlimit, nil_append, take_replicate]
    rfl
  refine ⟨?_, hclass, fun h => ?_, ?_, fun h => ?_⟩
  · rw [handleConn_eq, payloads, framesOf_message]
    rfl
  · have hbeat := h.empty 0 message hfirst (answer_forwarded hclass _)
    rw [hclass] at hbeat
    cases hbeat
  · rw [handleConn_eq, payloads, framesOf_message, answers_cons, hcut]
    exact flatMap_singleton _ _
  · have hsame := h.respond_eq hfirst
    rw [hcut, owed, answer_forwarded hclass, ask_message] at hsame
    have hlen := congrArg length (Option.some.inj hsame)
    rw [nil_append, bodyOf, length_replicate, length_replicate] at hlen
    omega

end Wtg.Edge.TcpGateway
