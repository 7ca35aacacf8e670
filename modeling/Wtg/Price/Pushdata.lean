import Wtg.Mymq.Codec
import Wtg.Price.Dedup
import Wtg.Quote.Envelope

/-! # Envelopes one by one and in batches

`EncodePushdataV1` and `EncodePushdataBatch` of `pkg/quote/pushdata.go` put one envelope, or an
array of envelopes, into a `pushdata` record; `DecodePushData`, `ParseEnvelopes` and
`Server.IngestEnvelopes` of `internal/price` take the record apart and call the consumers.
`feed_batch_iff` says when a batch does the same as its envelopes one by one. -/

namespace Wtg.Price.Pushdata

open Lib Lib.Buffer Mymq.Codec Price.Dedup Quote.Envelope List

def maxPushLen : ℕ := 1512

def pushdataSize : ℕ := 1552

structure PushdataOptions where
  marketID : UInt64 := 0
  seqNum : UInt32
  symbol : Bytes
  mask : UInt32 := 0
  type : UInt8 := 0
  flag : UInt8 := 0

def PushdataOptions.fields (opts : PushdataOptions) (payload : Bytes) : List (ℕ × Bytes) :=
  [(0, bigEndian 8 opts.marketID.toNat), (8, putU32 opts.seqNum),
    (12, (padCopy 20 opts.symbol).toList), (32, putU32 opts.mask), (36, [opts.type]),
    (37, [opts.flag]), (38, putU16 (.ofNat payload.length)),
    (40, (padCopy maxPushLen payload).toList)]

inductive PushErr
  | payloadTooLong
  | tooShort
  | envelope (err : EnvelopeErr)
  | json (text : String)
  deriving DecidableEq, Repr

def encodePushdata (opts : PushdataOptions) (payload : Bytes) : Except PushErr Bytes :=
  if payload.length > maxPushLen then .error .payloadTooLong
  else .ok (writes (List.replicate pushdataSize 0) (opts.fields payload))

/-- A `Tick` without the time at which it was decoded. -/
structure Tick where
  marketID : UInt64
  symbol : Bytes
  seqNum : UInt32
  mask : UInt32
  type : UInt8
  flag : UInt8
  body : Bytes
  deriving DecidableEq, Repr

def decodePushData (raw : Bytes) : Except PushErr Tick :=
  if raw.length < pushdataSize then .error .tooShort
  else .ok {
      marketID := .ofNat (ofBigEndian (slice raw 0 8))
      symbol := (slice raw 12 20).takeWhile (· ≠ 0)
      seqNum := getU32 (slice raw 8 4)
      mask := getU32 (slice raw 32 4)
      type := raw.getD 36 0
      flag := raw.getD 37 0
      body := slice raw 40 (min (getU16 (slice raw 38 2)).toNat maxPushLen) }

lemma contiguous_fields (opts : PushdataOptions) (payload : Bytes) :
    Contiguous 0 (opts.fields payload) := by
  simp [PushdataOptions.fields, Contiguous]

lemma length_fields (opts : PushdataOptions) (payload : Bytes) :
    (written (opts.fields payload)).length = pushdataSize := by
  simp [PushdataOptions.fields, written, maxPushLen, pushdataSize]

def PushdataOptions.tick (opts : PushdataOptions) (payload : Bytes) : Tick where
  marketID := opts.marketID
  symbol := (padCopy 20 opts.symbol).toList.takeWhile (· ≠ 0)
  seqNum := opts.seqNum
  mask := opts.mask
  type := opts.type
  flag := opts.flag
  body := payload

lemma decodePushData_encodePushdata {opts : PushdataOptions} {payload raw : Bytes}
    (h : encodePushdata opts payload = .ok raw) : decodePushData raw = .ok (opts.tick payload) := by
  revert h
  fun_cases encodePushdata opts payload
  case case1 hlen => exact nofun
  case case2 hlen =>
    have hcont := contiguous_fields opts payload
    have hsize : (replicate pushdataSize (0 : UInt8)).length =
        (written (opts.fields payload)).length := by rw [length_fields, length_replicate]
    have hraw : (writes (replicate pushdataSize 0) (opts.fields payload)).length =
        pushdataSize := by rw [writes_full hcont hsize, length_fields]
    have hread : ∀ off n bs, (off, bs) ∈ opts.fields payload → bs.length = n →
        slice (writes (replicate pushdataSize 0) (opts.fields payload)) off n = bs :=
      fun off n bs hmem hn => slice_writes hcont hsize.ge hmem hn
    generalize writes (replicate pushdataSize 0) (opts.fields payload) = buf at hraw hread
    rintro ⟨⟩
    rw [not_lt] at hlen
    have hid := hread 0 8 (bigEndian 8 opts.marketID.toNat) (by simp [PushdataOptions.fields])
      (length_bigEndian ..)
    have hseq := hread 8 4 (putU32 opts.seqNum) (by simp [PushdataOptions.fields])
      (length_putU32 _)
    have hsym := hread 12 20 (padCopy 20 opts.symbol).toList (by simp [PushdataOptions.fields])
      (List.Vector.toList_length _)
    have hmask := hread 32 4 (putU32 opts.mask) (by simp [PushdataOptions.fields])
      (length_putU32 _)
    have htype := hread 36 1 [opts.type] (by simp [PushdataOptions.fields]) rfl
    have hflag := hread 37 1 [opts.flag] (by simp [PushdataOptions.fields]) rfl
    have hmsgl := hread 38 2 (putU16 (.ofNat payload.length)) (by simp [PushdataOptions.fields])
      (length_putU16 _)
    have hmsgb := hread 40 maxPushLen (padCopy maxPushLen payload).toList
      (by simp [PushdataOptions.fields]) (List.Vector.toList_length _)
    have hbody : slice raw 40 payload.length = payload := by
      calc slice raw 40 payload.length
          = (slice raw 40 maxPushLen).take payload.length := by
            rw [slice, slice, take_take, min_eq_left hlen]
        _ = payload := by
            rw [hmsgb]
            show (payload.take maxPushLen ++ _).take payload.length = payload
            rw [take_of_length_le hlen, take_left]
    have hid' : opts.marketID.toNat % 256 ^ 8 = opts.marketID.toNat :=
      Nat.mod_eq_of_lt opts.marketID.toNat_lt
    have hlen' : (UInt16.ofNat payload.length).toNat = payload.length :=
      UInt16.toNat_ofNat_of_lt' (hlen.trans_lt (by decide))
    rw [decodePushData, if_neg hraw.not_lt, hid, hseq, hsym, hmask, hmsgl, getD_of_slice htype,
      getD_of_slice hflag, getU16_putU16, hlen', min_eq_left hlen, hbody, getU32_putU32,
      getU32_putU32, ofBigEndian_bigEndian, hid', UInt64.ofNat_toNat]
    rfl

variable {R : Type*}

/-- Go's JSON of envelopes; `unmarshalAll` reads an array. -/
structure Json (R : Type*) extends Wire R where
  unmarshalAll : Bytes → Except String (List (JSONEnvelope R))

def Json.array : List Bytes → Bytes
  | [] => [91, 93]
  | b :: bs => 91 :: (b ++ bs.flatMap (44 :: ·) ++ [93])

/-- `json.Marshal` of a slice. -/
def Json.marshalAll (json : Json R) (envs : List (JSONEnvelope R)) : Except String Bytes :=
  (envs.mapM json.marshal).map array

def headerOf (env : JSONEnvelope R) : PushdataOptions where
  seqNum := env.seq.toUInt32
  symbol := env.sym.toUTF8.toList

def encodePushdataV1 (json : Json R) (env : JSONEnvelope R) : Except PushErr Bytes :=
  match json.marshal env with
  | .error text => .error (.json text)
  | .ok body => encodePushdata (headerOf env) body

def encodePushdataBatch (json : Json R) : List (JSONEnvelope R) → Except PushErr Bytes
  | [] => .error (.envelope .empty)
  | first :: rest =>
    match json.marshalAll (first :: rest) with
    | .error text => .error (.json text)
    | .ok body => encodePushdata (headerOf first) body

/-! ## Ingestion -/

def isBlank (b : UInt8) : Bool := b == 32 || b == 9 || b == 13 || b == 10

/-- What a consumer is called with, but for the time. -/
structure Call where
  marketID : UInt64
  symbol : String
  seqNum : UInt32
  mask : UInt32
  type : UInt8
  flag : UInt8
  body : Bytes
  source : String
  deriving DecidableEq, Repr

/-- The marks of the duplicate check, if it is on, and the calls of the consumers so far. -/
structure State where
  dedup : Option TickDedup
  calls : List Call

def seenBy (dedup : Option TickDedup) (env : JSONEnvelope R) : Option TickDedup × Bool :=
  match dedup with
  | none => (none, false)
  | some d =>
    let (d', dup) := Dedup.seen d env.src env.seq
    (some d', dup)

/-- The call for an envelope under the header `base`. -/
def callOf (base : Tick) (env : JSONEnvelope R) (body : Bytes) : Call :=
  ⟨base.marketID, env.sym, if env.seq.toUInt32 = 0 then base.seqNum else env.seq.toUInt32,
    base.mask, base.type, base.flag, body, env.src⟩

/-- The loop body of `IngestEnvelopes`. -/
def ingestOne (json : Json R) (base : Tick) (s : State) (env : JSONEnvelope R) : State :=
  let (dedup, dup) := seenBy s.dedup env
  if dup then { s with dedup }
  else
    match json.marshal env with
    | .error _ => { s with dedup }
    | .ok body => { dedup, calls := s.calls ++ [callOf base env body] }

/-- **JSON is read back**, for these envelopes: an envelope is written as an object, which has no
blanks around it. -/
structure Inverse (json : Json R) (envs : List (JSONEnvelope R)) : Prop where
  object : ∀ env ∈ envs, ∀ body, json.marshal env = .ok body → ∃ mid, body = 123 :: (mid ++ [125])
  trim : ∀ mid, json.trimSpace (123 :: (mid ++ [125])) = 123 :: (mid ++ [125])
  one : ∀ env ∈ envs, ∀ body, json.marshal env = .ok body → json.unmarshal body = .ok env
  all : ∀ body, json.marshalAll envs = .ok body → json.unmarshalAll body = .ok envs

/-- The envelopes that are no duplicates when they come one after another. -/
def passing : Option TickDedup → List (JSONEnvelope R) → List (JSONEnvelope R)
  | _, [] => []
  | dedup, env :: envs =>
    if (seenBy dedup env).2 then passing dedup envs
    else env :: passing (seenBy dedup env).1 envs

variable {json : Json R} {s : State} {env first : JSONEnvelope R} {envs : List (JSONEnvelope R)}
  {base : Tick} {body payload : Bytes}

lemma marshalAll_ok (h : json.marshalAll envs = .ok body) :
    ∃ bodies, envs.mapM json.marshal = .ok bodies ∧ Json.array bodies = body := by
  unfold Json.marshalAll at h
  cases hbodies : envs.mapM json.marshal with
  | error err =>
    rw [hbodies] at h
    cases h
  | ok bodies =>
    rw [hbodies] at h
    exact ⟨bodies, rfl, Except.ok.inj h⟩

lemma exists_part : ∀ {envs : List (JSONEnvelope R)} {bodies : List Bytes},
    envs.mapM json.marshal = .ok bodies → ∀ env ∈ envs,
      ∃ part ∈ bodies, json.marshal env = .ok part
  | [], _, _, _, hmem => by cases hmem
  | e :: envs, bodies, h, env, hmem => by
    rw [mapM_cons] at h
    cases he : json.marshal e with
    | error err =>
      rw [he] at h
      cases h
    | ok part =>
      rw [he] at h
      cases hrest : envs.mapM json.marshal with
      | error err =>
        simp only [hrest] at h
        cases h
      | ok parts =>
        simp only [hrest] at h
        cases h
        rcases mem_cons.mp hmem with rfl | hmem
        · exact ⟨part, mem_cons_self, he⟩
        · obtain ⟨part', hpart, hok⟩ := exists_part hrest env hmem
          exact ⟨part', mem_cons_of_mem _ hpart, hok⟩

lemma length_le_array {bodies : List Bytes} {part : Bytes} (h : part ∈ bodies) :
    part.length ≤ (Json.array bodies).length := by
  cases bodies with
  | nil => cases h
  | cons b bs =>
    rw [Json.array, length_cons, length_append, length_append]
    rcases mem_cons.mp h with rfl | h
    · omega
    · have hsub := (sublist_flatten_of_mem (mem_map_of_mem (f := (44 :: ·)) h)).length_le
      rw [← flatMap_def, length_cons] at hsub
      omega

lemma seenBy_dup {dedup : Option TickDedup} (h : (seenBy dedup env).2 = true) :
    (seenBy dedup env).1 = dedup := by
  rcases dedup with _ | d
  · rfl
  · revert h
    simp only [seenBy]
    fun_cases Dedup.seen d env.src env.seq <;> simp_all

lemma ingestOne_dup (h : (seenBy s.dedup env).2 = true) : ingestOne json base s env = s := by
  rw [ingestOne]
  simp only [h, if_true, seenBy_dup h]

lemma ingestOne_pass (h : (seenBy s.dedup env).2 = false) (hbody : json.marshal env = .ok body) :
    ingestOne json base s env =
      ⟨(seenBy s.dedup env).1, s.calls ++ [callOf base env body]⟩ := by
  rw [ingestOne]
  simp only [h, Bool.false_eq_true, if_false, hbody]

lemma calls_batch (base : Tick) : ∀ (envs : List (JSONEnvelope R)) (s : State),
    ∃ more, (envs.foldl (ingestOne json base) s).calls = s.calls ++ more
  | [], s => ⟨[], (append_nil _).symm⟩
  | env :: envs, s => by
    obtain ⟨more, hmore⟩ := calls_batch base envs (ingestOne json base s env)
    obtain ⟨one, hone⟩ : ∃ one, (ingestOne json base s env).calls = s.calls ++ one := by
      fun_cases ingestOne json base s env
      case case3 => exact ⟨_, rfl⟩
      all_goals exact ⟨[], (append_nil _).symm⟩
    exact ⟨one ++ more, by rw [foldl_cons, hmore, hone, append_assoc]⟩

/-- The call is the same as of the envelope alone, unless it takes the number of the first one. -/
lemma callOf_eq_iff (env : JSONEnvelope R) (body : Bytes) :
    callOf ((headerOf first).tick payload) env body = callOf ((headerOf env).tick []) env body ↔
      (env.seq.toUInt32 = 0 → first.seq.toUInt32 = 0) := by
  by_cases h : env.seq.toUInt32 = 0
  · simp [callOf, headerOf, PushdataOptions.tick, h]
  · simp [callOf, headerOf, PushdataOptions.tick, h]

lemma trimNul_of_last {b c : UInt8} {mid : Bytes} (hc : c ≠ 0) :
    trimNul (b :: (mid ++ [c])) = b :: (mid ++ [c]) := by
  rw [← cons_append, trimNul, reverse_append, reverse_singleton,
    singleton_append, dropWhile_cons_of_neg (by simpa using hc)]
  simp

/-! ## The feed -/

section

variable [LinearOrder R] [Zero R]

def parseEnvelopes (json : Json R) (body : Bytes) : Except PushErr (List (JSONEnvelope R)) :=
  match (trimNul body).dropWhile isBlank with
  | [] => .error (.envelope .empty)
  | b :: rest =>
    if b = 91 then (json.unmarshalAll (b :: rest)).mapError .json
    else
      match decodeJSONEnvelope json.toWire (b :: rest) with
      | .error err => .error (.envelope err)
      | .ok env => .ok [env.toJSONEnvelope]

def ingestEnvelopes (json : Json R) (s : State) (body : Bytes) (base : Tick) : State :=
  match parseEnvelopes json body with
  | .error _ => s
  | .ok envs => envs.foldl (ingestOne json base) s

/-- `handleUnsolicited`. -/
def feed (json : Json R) (s : State) (raw : Bytes) : State :=
  match decodePushData raw with
  | .error _ => s
  | .ok t => ingestEnvelopes json s t.body t

def feedEach (json : Json R) (s : State) (envs : List (JSONEnvelope R)) : State :=
  envs.foldl (fun s env =>
    match encodePushdataV1 json env with
    | .error _ => s
    | .ok raw => feed json s raw) s

def Valid (env : JSONEnvelope R) : Prop := env.sym ≠ "" ∧ 0 < env.bid ∧ env.bid ≤ env.ask

instance (env : JSONEnvelope R) : Decidable (Valid env) := inferInstanceAs (Decidable (_ ∧ _))

/-- An envelope on its own: its header is made from itself. -/
def ingestAlone (json : Json R) (s : State) (env : JSONEnvelope R) : State :=
  if Valid env then ingestOne json ((headerOf env).tick []) s env else s

lemma feed_encodePushdata {opts : PushdataOptions} {payload raw : Bytes}
    (h : encodePushdata opts payload = .ok raw) :
    feed json s raw = ingestEnvelopes json s payload (opts.tick payload) := by
  rw [feed, decodePushData_encodePushdata h]
  rfl

lemma decodeJSONEnvelope_one (hjson : Inverse json envs) (hmem : env ∈ envs)
    (hbody : json.marshal env = .ok body) :
    decodeJSONEnvelope json.toWire body = checkEnvelope env := by
  have hone := hjson.one env hmem body hbody
  obtain ⟨mid, rfl⟩ := hjson.object env hmem body hbody
  rw [decodeJSONEnvelope, if_neg (by simp), trimNul_of_last (by decide)]
  dsimp only
  rw [hjson.trim, if_neg (by simp), hone]

lemma ingestEnvelopes_one (hjson : Inverse json envs) (hmem : env ∈ envs)
    (hbody : json.marshal env = .ok body) (base : Tick) :
    ingestEnvelopes json s body base = if Valid env then ingestOne json base s env else s := by
  have hdecode := decodeJSONEnvelope_one hjson hmem hbody
  obtain ⟨mid, rfl⟩ := hjson.object env hmem body hbody
  rw [ingestEnvelopes, parseEnvelopes, trimNul_of_last (by decide),
    dropWhile_cons_of_neg (by decide)]
  dsimp only
  rw [if_neg (by decide), hdecode]
  fun_cases checkEnvelope env
  case case1 hsym => rw [if_neg fun h : Valid env => h.1 hsym]
  case case2 hsym hprice =>
    rw [if_neg]
    rintro ⟨-, hpos, hle⟩
    exact hprice.elim hpos.not_ge fun h => h.elim (hpos.trans_le hle).not_ge hle.not_gt
  case case3 hsym hprice =>
    rw [not_or, not_or, not_le, not_le, not_lt] at hprice
    rw [if_pos ⟨hsym, hprice.1, hprice.2.2⟩]
    rfl

lemma ingestEnvelopes_all (hjson : Inverse json envs) (hbody : json.marshalAll envs = .ok body)
    (base : Tick) : ingestEnvelopes json s body base = envs.foldl (ingestOne json base) s := by
  have hall := hjson.all body hbody
  obtain ⟨mid, rfl⟩ : ∃ mid, body = 91 :: (mid ++ [93]) := by
    obtain ⟨bodies, -, rfl⟩ := marshalAll_ok hbody
    cases bodies with
    | nil => exact ⟨[], rfl⟩
    | cons b bs => exact ⟨_, rfl⟩
  rw [ingestEnvelopes, parseEnvelopes, trimNul_of_last (by decide),
    dropWhile_cons_of_neg (by decide)]
  dsimp only
  rw [if_pos rfl, hall]
  rfl

lemma feed_one (hjson : Inverse json envs) (hmem : env ∈ envs) {part : Bytes}
    (hpart : json.marshal env = .ok part) (hlen : part.length ≤ maxPushLen) :
    (match encodePushdataV1 json env with
    | .error _ => s
    | .ok raw => feed json s raw) =
      if Valid env then ingestOne json ((headerOf env).tick part) s env else s := by
  have hraw : encodePushdataV1 json env =
      .ok (writes (replicate pushdataSize 0) ((headerOf env).fields part)) := by
    rw [encodePushdataV1, hpart]
    exact if_neg hlen.not_gt
  rw [hraw]
  dsimp only
  rw [feed_encodePushdata (if_neg hlen.not_gt), ingestEnvelopes_one hjson hmem hpart]

lemma calls_alone : ∀ (envs : List (JSONEnvelope R)) (s : State),
    ∃ more, (envs.foldl (ingestAlone json) s).calls = s.calls ++ more ∧
      ∀ c ∈ more, ∃ env ∈ envs, Valid env ∧ json.marshal env = .ok c.body
  | [], s => ⟨[], (append_nil _).symm, nofun⟩
  | env :: envs, s => by
    obtain ⟨more, hmore, hvalid⟩ := calls_alone envs (ingestAlone json s env)
    obtain ⟨one, hone, hcall⟩ : ∃ one, (ingestAlone json s env).calls = s.calls ++ one ∧
        ∀ c ∈ one, Valid env ∧ json.marshal env = .ok c.body := by
      unfold ingestAlone
      split_ifs with hv
      · fun_cases ingestOne json ((headerOf env).tick []) s env
        case case3 body hbody => exact ⟨_, rfl, fun c hc => ⟨hv, by simpa [mem_singleton.mp hc]⟩⟩
        all_goals exact ⟨[], (append_nil _).symm, nofun⟩
      · exact ⟨[], (append_nil _).symm, nofun⟩
    refine ⟨one ++ more, by rw [foldl_cons, hmore, hone, append_assoc], fun c hc => ?_⟩
    rcases mem_append.mp hc with hc | hc
    · exact ⟨env, mem_cons_self, hcall c hc⟩
    · obtain ⟨z, hz, hz'⟩ := hvalid c hc
      exact ⟨z, mem_cons_of_mem _ hz, hz'⟩

/-! ## A batch and its envelopes one by one -/

section

variable {all : List (JSONEnvelope R)} (hjson : Inverse json all)
  (hbodies : ∀ env ∈ all, ∃ body, json.marshal env = .ok body)

include hjson hbodies

lemma foldl_ingestOne_iff : ∀ (envs : List (JSONEnvelope R)) (s : State), envs ⊆ all →
    (envs.foldl (ingestOne json ((headerOf first).tick payload)) s =
        envs.foldl (ingestAlone json) s ↔
      ∀ env ∈ passing s.dedup envs,
        Valid env ∧ (env.seq.toUInt32 = 0 → first.seq.toUInt32 = 0))
  | [], s, _ => iff_of_true rfl nofun
  | env :: envs, s, hsub => by
    obtain ⟨hmem, hsub⟩ := cons_subset.mp hsub
    obtain ⟨body, hbody⟩ := hbodies env hmem
    rw [foldl_cons, foldl_cons, passing]
    by_cases hdup : (seenBy s.dedup env).2 = true
    · have halone : ingestAlone json s env = s := by
        rw [ingestAlone, ingestOne_dup hdup, ite_self]
      rw [ingestOne_dup hdup, halone, if_pos hdup]
      exact foldl_ingestOne_iff envs s hsub
    · rw [Bool.not_eq_true] at hdup
      rw [if_neg (by simp [hdup]), forall_mem_cons, ingestOne_pass hdup hbody]
      by_cases hok : Valid env ∧ (env.seq.toUInt32 = 0 → first.seq.toUInt32 = 0)
      · rw [ingestAlone, if_pos hok.1, ingestOne_pass hdup hbody,
          (callOf_eq_iff env body).mpr hok.2, and_iff_right hok]
        exact foldl_ingestOne_iff envs _ hsub
      · -- the call of the batch is not made, or made otherwise, for the envelope alone
        refine iff_of_false (fun heq => hok ?_) fun h => hok h.1
        obtain ⟨more, hmore⟩ := calls_batch ((headerOf first).tick payload) envs _
        have hcalls := hmore.symm.trans (congrArg State.calls heq)
        obtain ⟨more', hmore', hvalid⟩ := calls_alone envs (ingestAlone json s env)
        rw [hmore', append_assoc] at hcalls
        by_cases hv : Valid env
        · rw [ingestAlone, if_pos hv, ingestOne_pass hdup hbody, append_assoc,
            append_cancel_left_eq, singleton_append, singleton_append, cons.injEq] at hcalls
          exact ⟨hv, (callOf_eq_iff env body).mp hcalls.1⟩
        · rw [ingestAlone, if_neg hv, append_cancel_left_eq, singleton_append] at hcalls
          obtain ⟨z, hz, hzvalid, hzbody⟩ := hvalid _ (hcalls ▸ mem_cons_self)
          have hsame : Except.ok z = Except.ok env :=
            (hjson.one z (hsub hz) body hzbody).symm.trans (hjson.one env hmem body hbody)
          exact absurd (Except.ok.inj hsame ▸ hzvalid) hv

end

/-- **When batching is transparent**: exactly if every envelope that the duplicate check lets pass
passes the check of a single one, and lacks a sequence number only if the first one does. -/
theorem feed_batch_iff {raw : Bytes} (hjson : Inverse json (first :: envs))
    (hraw : encodePushdataBatch json (first :: envs) = .ok raw) :
    feed json s raw = feedEach json s (first :: envs) ↔
      ∀ env ∈ passing s.dedup (first :: envs),
        Valid env ∧ (env.seq.toUInt32 = 0 → first.seq.toUInt32 = 0) := by
  rw [encodePushdataBatch] at hraw
  cases hbody : json.marshalAll (first :: envs) with
  | error text =>
    rw [hbody] at hraw
    cases hraw
  | ok body =>
    rw [hbody] at hraw
    have hlen : body.length ≤ maxPushLen := by
      by_contra hlong
      dsimp only at hraw
      rw [encodePushdata, if_pos (not_le.mp hlong)] at hraw
      cases hraw
    obtain ⟨bodies, hbodies, rfl⟩ := marshalAll_ok hbody
    have heach : feedEach json s (first :: envs) = (first :: envs).foldl (ingestAlone json) s := by
      refine foldl_ext _ _ s fun s env hmem => ?_
      obtain ⟨part, hpart, hok⟩ := exists_part hbodies env hmem
      rw [feed_one hjson hmem hok ((length_le_array hpart).trans hlen)]
      rfl
    rw [feed_encodePushdata hraw, ingestEnvelopes_all hjson hbody, heach]
    refine foldl_ingestOne_iff hjson (fun env hmem => ?_) _ s (Subset.refl _)
    obtain ⟨part, -, hok⟩ := exists_part hbodies env hmem
    exact ⟨part, hok⟩

end

def firstEnvelope (n : UInt64) : JSONEnvelope ℤ := ⟨"A", 1, 2, 0, "F", n, 0, 0, 0, 0⟩

def secondEnvelope (bid : ℤ) (n : UInt64) : JSONEnvelope ℤ := ⟨"B", bid, 2, 0, "F", n, 0, 0, 0, 0⟩

def twoEnvelopes (n : UInt64) (bid : ℤ) (n' : UInt64) : List (JSONEnvelope ℤ) :=
  [firstEnvelope n, secondEnvelope bid n']

def tinyJson (n : UInt64) (bid : ℤ) (n' : UInt64) : Json ℤ where
  trimSpace := id
  marshal env := .ok (if env.sym = "A" then [123, 65, 125] else [123, 66, 125])
  unmarshal body := .ok (if body = [123, 65, 125] then firstEnvelope n else secondEnvelope bid n')
  unmarshalAll _ := .ok (twoEnvelopes n bid n')

lemma inverse_tinyJson (n : UInt64) (bid : ℤ) (n' : UInt64) :
    Inverse (tinyJson n bid n') (twoEnvelopes n bid n') where
  object env hmem body h := by
    rcases mem_pair.mp hmem with rfl | rfl <;> cases h <;> exact ⟨[_], rfl⟩
  trim _ := rfl
  one env hmem body h := by
    rcases mem_pair.mp hmem with rfl | rfl <;> cases h <;> rfl
  all _ _ := rfl

/-- The second envelope could not stand alone, but it is a duplicate of the first. -/
theorem feed_batch_iff_two : ∃ raw,
    encodePushdataBatch (tinyJson 5 0 5) (twoEnvelopes 5 0 5) = .ok raw ∧
      passing (some newTickDedup) (twoEnvelopes 5 0 5) = [firstEnvelope 5] ∧
      ¬ Valid (secondEnvelope 0 5) ∧
      feed (tinyJson 5 0 5) ⟨some newTickDedup, []⟩ raw =
        feedEach (tinyJson 5 0 5) ⟨some newTickDedup, []⟩ (twoEnvelopes 5 0 5) := by
  have hpassing : passing (some newTickDedup) (twoEnvelopes 5 0 5) = [firstEnvelope 5] := by
    decide +kernel
  refine ⟨_, rfl, hpassing, by decide, (feed_batch_iff (inverse_tinyJson 5 0 5) rfl).mpr ?_⟩
  intro env henv
  obtain rfl : env = firstEnvelope 5 := mem_singleton.mp (hpassing ▸ henv)
  decide

/-- In a batch the second envelope takes the number of the first, and its bid is not checked. -/
theorem batch_differs : Inverse (tinyJson 5 0 0) (twoEnvelopes 5 0 0) ∧ ∃ raw,
    encodePushdataBatch (tinyJson 5 0 0) (twoEnvelopes 5 0 0) = .ok raw ∧
      (feed (tinyJson 5 0 0) ⟨none, []⟩ raw).calls.map (fun c => (c.symbol, c.seqNum)) =
        [("A", 5), ("B", 5)] ∧
      (feedEach (tinyJson 5 0 0) ⟨none, []⟩ (twoEnvelopes 5 0 0)).calls.map
        (fun c => (c.symbol, c.seqNum)) = [("A", 5)] :=
  ⟨inverse_tinyJson 5 0 0, _, rfl, by decide +kernel, by decide +kernel⟩

end Wtg.Price.Pushdata
