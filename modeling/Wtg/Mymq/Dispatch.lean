import Wtg.Lib.GoMap
import Wtg.Mymq.Frame
import Wtg.Mymq.Lzo

/-! # Delivery of received frames

`Client.dispatch` of `pkg/mymq/client.go`, with `Decompress` of `compress.go` and `SplitBroadcast`
of `pubsub.go`. -/

namespace Wtg.Mymq.Dispatch

open Lib Lib.Buffer Mymq.Codec Mymq.Frame Mymq.Lzo List

abbrev ZipfNone : UInt8 := 0
abbrev ZipfMlzo : UInt8 := 1
abbrev ZipfZlib : UInt8 := 2
abbrev ZipfLziv : UInt8 := 3

inductive DecompressErr
  | unsupportedZipf (what : String)
  | truncatedCompressed
  | lzo (e : LzoErr)
  | zlib (e : String)
deriving DecidableEq, Repr

/-- `zlib.NewReader` and `io.Copy`: the inflated bytes, or the text of the error. -/
abbrev Zlib := Bytes → Except String Bytes

/-! ## The client -/

section

variable (zlib : Zlib)

def decompressZlib (payload : Bytes) (_origSize : UInt32) : Except DecompressErr Bytes :=
  match zlib payload with
  | .error e => .error (.zlib e)
  | .ok out => .ok out

def decompress (src : Bytes) (zipf : UInt8) : Except DecompressErr Bytes :=
  if zipf = ZipfNone then .ok src
  else if src.length < 4 then .error .truncatedCompressed
  else
    let origSize := getU32 (slice src 0 4)
    let payload := src.drop 4
    if zipf = ZipfZlib then decompressZlib zlib payload origSize
    else if zipf = ZipfMlzo then
      match decompressLZO1X payload origSize with
      | .error e => .error (.lzo e)
      | .ok out => .ok out
    else if zipf = ZipfLziv then .error (.unsupportedZipf "LZIV")
    else .error (.unsupportedZipf ("zipf=" ++ toString zipf.toNat))

def decompressBody (df : DecodedFrame) : Bytes :=
  if df.bodyZipf = ZipfNone ∨ df.body.length = 0 then df.body
  else
    match decompress zlib df.body df.bodyZipf with
    | .error _ => df.body
    | .ok plain => plain

abbrev FCCast : UInt8 := 4
abbrev FCPush : UInt8 := 13
abbrev FCSignal : UInt8 := 14

abbrev BroadcastPrefixSize : ℕ := 24 + 16 + 16 + 16 + 16 + 1 + 1 + 1 + 1

structure BroadcastHeader where
  ipAddr : Fixed 24
  exchange : Fixed 16
  chan : Fixed 16
  user : Fixed 16
  logonID : Fixed 16
  function : UInt8
  subFunction : UInt8
  viaNet : UInt8
  debug : UInt8
deriving DecidableEq

def BroadcastHeader.fields (h : BroadcastHeader) : List (ℕ × Bytes) :=
  [(0, h.ipAddr.toList), (24, h.exchange.toList), (40, h.chan.toList), (56, h.user.toList),
    (72, h.logonID.toList), (88, [h.function]), (89, [h.subFunction]), (90, [h.viaNet]),
    (91, [h.debug])]

def decodeBroadcastHeader (src : Bytes) : Except FrameErr BroadcastHeader :=
  if src.length < BroadcastPrefixSize then .error .frameTooShort
  else .ok {
    ipAddr := padCopy 24 (slice src 0 24)
    exchange := padCopy 16 (slice src 24 16)
    chan := padCopy 16 (slice src 40 16)
    user := padCopy 16 (slice src 56 16)
    logonID := padCopy 16 (slice src 72 16)
    function := src.getD 88 0
    subFunction := src.getD 89 0
    viaNet := src.getD 90 0
    debug := src.getD 91 0 }

lemma written_fields {src : Bytes} {h : BroadcastHeader}
    (hlen : src.length = BroadcastPrefixSize) (hdec : decodeBroadcastHeader src = .ok h) :
    written h.fields = src := by
  have hn : src.length = 92 := hlen
  have hfield : ∀ {o n : ℕ}, o + n ≤ 92 → (padCopy n (slice src o n)).toList = slice src o n :=
    fun ho => toList_padCopy (length_slice (by omega))
  have hbyte : ∀ {o : ℕ}, o < 92 → [src.getD o 0] = slice src o 1 :=
    fun ho => (slice_one (by omega)).symm
  have hall : slice src 0 92 = src := take_of_length_le hn.le
  unfold decodeBroadcastHeader at hdec
  rw [if_neg (by omega)] at hdec
  obtain rfl := Except.ok.inj hdec
  simp only [written, BroadcastHeader.fields, flatMap_cons, flatMap_nil, append_nil]
  rw [hfield (by omega), hfield (by omega), hfield (by omega), hfield (by omega), hfield (by omega),
    hbyte (by omega), hbyte (by omega), hbyte (by omega), hbyte (by omega), slice_add src 90 1 1,
    slice_add src 89 1, slice_add src 88 1, slice_add src 72 16, slice_add src 56 16,
    slice_add src 40 16, slice_add src 24 16, slice_add src 0 24, hall]

def splitBroadcast (body : Bytes) : Except FrameErr (Option BroadcastHeader × Bytes) :=
  if body.length < BroadcastPrefixSize then .ok (none, body)
  else
    match decodeBroadcastHeader (body.take BroadcastPrefixSize) with
    | .error e => .error e
    | .ok h => .ok (some h, body.drop BroadcastPrefixSize)

lemma splitBroadcast_join {body payload : Bytes} {h : BroadcastHeader}
    (hs : splitBroadcast body = .ok (some h, payload)) : body = written h.fields ++ payload := by
  unfold splitBroadcast at hs
  split_ifs at hs with hlen
  · simp at hs
  rcases hd : decodeBroadcastHeader (body.take BroadcastPrefixSize) with e | h'
  · rw [hd] at hs
    cases hs
  · rw [hd] at hs
    cases hs
    rw [written_fields (by rw [length_take]; omega) hd, take_append_drop]

structure Reply where
  header : Header
  body : Bytes
  errMsg : Bytes
  errn : UInt32
  cookie : Option Cookie
  decoded : DecodedFrame
deriving DecidableEq

structure Unsolicited where
  header : Header
  pfx : Option BroadcastHeader
  body : Bytes
  errMsg : Bytes
  decoded : DecodedFrame
deriving DecidableEq

def reply (df : DecodedFrame) : Reply :=
  ⟨df.header, decompressBody zlib df, df.errMsg, df.header.errn, df.cookie, df⟩

def splitBody (func : UInt8) (body : Bytes) : Option BroadcastHeader × Bytes :=
  if func = FCCast ∨ func = FCPush ∨ func = FCSignal then
    match splitBroadcast body with
    | .ok (some h, payload) => (some h, payload)
    | _ => (none, body)
  else (none, body)

lemma splitBody_injective (func : UInt8) : Function.Injective (splitBody func) := by
  -- both parts together determine the body
  have hjoin : ∀ body, body = ((splitBody func body).1.elim [] fun h => written h.fields) ++
      (splitBody func body).2 := by
    intro body
    unfold splitBody
    split_ifs with hf
    · rcases hs : splitBroadcast body with e | ⟨_ | h, payload⟩
      · rfl
      · rfl
      · exact splitBroadcast_join hs
    · rfl
  intro a b hab
  rw [hjoin a, hjoin b, hab]

def unsolicited (df : DecodedFrame) : Unsolicited :=
  let (pfx, out) := splitBody df.header.func df.body
  ⟨df.header, pfx, out, df.errMsg, df⟩

/-- What `dispatch` works on: the reply channels of the calls that wait, by `ckey`, and the
subscription channel. -/
structure Mailbox where
  pending : GoMap UInt32 ℕ
  subCh : List Unsolicited
  subCap : ℕ
  subDrops : UInt64

inductive Delivery
  | replied (ch : ℕ) (r : Reply)
  | published (u : Unsolicited)
  | dropped
deriving DecidableEq

def deliverUnsolicited (df : DecodedFrame) (m : Mailbox) : Mailbox × Delivery :=
  let u := unsolicited df
  if m.subCh.length < m.subCap then ({ m with subCh := m.subCh ++ [u] }, .published u)
  else ({ m with subDrops := m.subDrops + 1 }, .dropped)

def dispatch (df : DecodedFrame) (m : Mailbox) : Mailbox × Delivery :=
  let ckey := df.header.ckey
  match if ckey ≠ 0 then m.pending.lookup ckey else none with
  | some ch => ({ m with pending := m.pending.erase ckey }, .replied ch (reply zlib df))
  | none => deliverUnsolicited df m

def plainBody (df : DecodedFrame) : Bytes :=
  match decompress zlib df.body df.bodyZipf with
  | .error _ => df.body
  | .ok plain => plain

lemma decompress_nil (zipf : UInt8) (h : zipf ≠ ZipfNone) :
    decompress zlib [] zipf = .error .truncatedCompressed := by
  rw [decompress, if_neg h, if_pos (by decide)]

lemma decompressBody_eq (df : DecodedFrame) : decompressBody zlib df = plainBody zlib df := by
  unfold decompressBody plainBody
  by_cases hnone : df.bodyZipf = ZipfNone
  · rw [if_pos (.inl hnone), decompress, if_pos hnone]
  by_cases hlen : df.body.length = 0
  · have hbody : df.body = [] := eq_nil_of_length_eq_zero hlen
    rw [if_pos (.inr hlen), hbody, decompress_nil zlib _ hnone]
  · rw [if_neg (by simp only [hnone, hlen, or_self, not_false_iff])]

/-- What arrives is made of the body the frame stands for. -/
def Delivery.FromPlain (df : DecodedFrame) : Delivery → Prop
  | .replied _ r => r.body = plainBody zlib df
  | .published u => (u.pfx, u.body) = splitBody df.header.func (plainBody zlib df)
  | .dropped => True

lemma plainBody_eq_body_iff (df : DecodedFrame) : plainBody zlib df = df.body ↔
    ∀ plain, decompress zlib df.body df.bodyZipf = .ok plain → plain = df.body := by
  unfold plainBody
  rcases decompress zlib df.body df.bodyZipf with e | plain
  · simp
  · simp

/-- **When the two paths agree**: the frame answers a pending call, or is dropped, or its body is
what decompressing gives. -/
theorem dispatch_decompressed_iff (df : DecodedFrame) (m : Mailbox) :
    (dispatch zlib df m).2.FromPlain zlib df ↔
      (df.header.ckey ≠ 0 ∧ df.header.ckey ∈ m.pending) ∨ m.subCap ≤ m.subCh.length ∨
        ∀ plain, decompress zlib df.body df.bodyZipf = .ok plain → plain = df.body := by
  have hmem : df.header.ckey ∈ m.pending ↔ (m.pending.lookup df.header.ckey).isSome :=
    AList.lookup_isSome.symm
  by_cases hreply : df.header.ckey ≠ 0 ∧ df.header.ckey ∈ m.pending
  · obtain ⟨ch, hch⟩ := Option.isSome_iff_exists.mp (hmem.mp hreply.2)
    have hd : (dispatch zlib df m).2 = .replied ch (reply zlib df) := by
      simp only [dispatch, if_pos hreply.1, hch]
    rw [hd]
    exact iff_of_true (decompressBody_eq zlib df) (.inl hreply)
  have hnone : (if df.header.ckey ≠ 0 then m.pending.lookup df.header.ckey else none) = none := by
    split_ifs with h0
    · rw [← Option.not_isSome_iff_eq_none, ← hmem]
      exact fun h => hreply ⟨h0, h⟩
    · rfl
  have hd : (dispatch zlib df m).2 = (deliverUnsolicited df m).2 := by
    simp only [dispatch, hnone]
  rw [hd, deliverUnsolicited]
  split_ifs with hcap
  · have hbody : Delivery.FromPlain zlib df (.published (unsolicited df)) ↔
        plainBody zlib df = df.body := by
      show splitBody df.header.func df.body = splitBody df.header.func (plainBody zlib df) ↔ _
      rw [(splitBody_injective _).eq_iff]
      exact eq_comm
    rw [hbody, plainBody_eq_body_iff]
    have hfull : ¬ m.subCap ≤ m.subCh.length := by omega
    simp only [hreply, hfull, false_or]
  · exact iff_of_true trivial (.inr (.inl (by omega)))

end

def pushFrame : DecodedFrame where
  header := { length := 109, func := FCPush, subc := 0, nvia := 0, dirf := 0, msgf := 0, ctlf := 0
              keyc := 0, xchg := padCopy LXchg [], rkey := padCopy LRkey [], ckey := 0, clid := 0
              wkey := padCopy 8 [], chan := padCopy 4 [], errn := 0, bodyZipf := ZipfMlzo
              bodyOff := 100, traceID := padCopy TraceIDSize [] }
  navis := []
  errMsg := []
  pkey := []
  nkey := []
  cookie := none
  body := [0, 0, 0, 1, 18, 65, 17, 0, 0]
  bodyZipf := ZipfMlzo

theorem dispatch_pushes_compressed :
    decompress (fun _ => .error "") pushFrame.body pushFrame.bodyZipf = .ok [65] ∧
      (dispatch (fun _ => .error "") pushFrame ⟨∅, [], 256, 0⟩).2 =
        .published ⟨pushFrame.header, none, [0, 0, 0, 1, 18, 65, 17, 0, 0], [], pushFrame⟩ ∧
      ¬ (dispatch (fun _ => .error "") pushFrame ⟨∅, [], 256, 0⟩).2.FromPlain (fun _ => .error "")
        pushFrame := by
  have hloop : loop [18, 65, 17, 0, 0] 1 ⟨2, 1, [65]⟩ 1 = .ok [65] := loop_done _ _ rfl
  have hlzo : decompressLZO1X [18, 65, 17, 0, 0] 1 = .ok [65] := hloop
  have hdec : decompress (fun _ => .error "") pushFrame.body pushFrame.bodyZipf = .ok [65] := by
    show (match decompressLZO1X [18, 65, 17, 0, 0] 1 with
      | .error e => Except.error (DecompressErr.lzo e)
      | .ok out => .ok out) = .ok [65]
    rw [hlzo]
  have hplain : plainBody (fun _ => .error "") pushFrame = [65] := by
    rw [plainBody, hdec]
  refine ⟨hdec, rfl, fun h => ?_⟩
  have hbody : splitBody FCPush [0, 0, 0, 1, 18, 65, 17, 0, 0] =
      splitBody FCPush (plainBody (fun _ => .error "") pushFrame) := h
  rw [hplain] at hbody
  exact absurd (splitBody_injective _ hbody) (by decide)

end Wtg.Mymq.Dispatch
