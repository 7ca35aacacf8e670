import Wtg.Auth.Stores
import Wtg.Mymq.Codec
import Wtg.QuoteId.Registry

/-! # Sessions as they are stored

`Session` of `pkg/auth/session.go` with all that a store keeps of it, and its document in Redis
(`sessionDTO` of `redisstore.go`). Nothing is lost in between (`fromDTO_toDTO`). -/

namespace Wtg.Auth.SessionDocs

open Lib.Buffer Mymq.Codec Auth.Stores List
open QuoteId.Registry (Profile)

structure WebSession where
  id : String
  usid : String
  channel : String
  cookie : Option Cookie
  lgnIdntCon : String
  cifNo : String
  issuedAt : Option ℤ
  expiresAt : Option ℤ
  lastSeenAt : Option ℤ
  profile : Profile
  logonID : String
  deriving DecidableEq

structure SessionDTO where
  id : String
  usid : String
  channel : String
  cookieB64 : String
  lgnIdntCon : String
  cifNo : String
  issuedAt : Option ℤ
  expiresAt : Option ℤ
  lastSeenAt : Option ℤ
  profile : Profile
  logonID : String
  deriving DecidableEq

structure Base64 where
  encode : Bytes → String
  decode : String → Except String Bytes
  decode_encode : ∀ bs, decode (encode bs) = .ok bs
  encode_ne : ∀ bs, bs ≠ [] → encode bs ≠ ""

/-! ## Documents -/

section

variable (B : Base64)

def cookieBytes (c : Cookie) : Bytes := encodeCookie (List.replicate CookieWire 0) c

def toDTO (s : WebSession) : SessionDTO where
  id := s.id
  usid := s.usid
  channel := s.channel
  cookieB64 := s.cookie.elim "" fun c => B.encode (cookieBytes c)
  lgnIdntCon := s.lgnIdntCon
  cifNo := s.cifNo
  issuedAt := s.issuedAt
  expiresAt := s.expiresAt
  lastSeenAt := s.lastSeenAt
  profile := s.profile
  logonID := s.logonID

def cookieOf (text : String) : Except String (Option Cookie) :=
  if text = "" then .ok none
  else
    match B.decode text with
    | .error e => .error ("redis store: cookie base64 decode: " ++ e)
    | .ok raw =>
      if raw.length ≠ CookieWire then
        .error ("redis store: cookie wire len " ++ toString raw.length ++ ", want " ++
          toString CookieWire)
      else .ok (some (decodeCookie raw))

def fromDTO (d : SessionDTO) : Except String WebSession :=
  (cookieOf B d.cookieB64).map fun cookie =>
    { id := d.id, usid := d.usid, channel := d.channel, cookie := cookie
      lgnIdntCon := d.lgnIdntCon, cifNo := d.cifNo, issuedAt := d.issuedAt
      expiresAt := d.expiresAt, lastSeenAt := d.lastSeenAt, profile := d.profile
      logonID := d.logonID }

variable {B}

lemma length_cookieBytes (c : Cookie) : (cookieBytes c).length = CookieWire := by
  have hlen : (replicate CookieWire (0 : UInt8)).length = (written c.fields).length := by
    rw [length_replicate, c.length_written]
  rw [cookieBytes, encodeCookie, writes_full c.contiguous hlen, c.length_written]

lemma cookieOf_encode (c : Cookie) :
    cookieOf B (B.encode (cookieBytes c)) = .ok (some c) := by
  have hne : cookieBytes c ≠ [] := by
    intro hnil
    have hlen := length_cookieBytes c
    rw [hnil] at hlen
    exact absurd hlen (by decide)
  unfold cookieOf
  rw [if_neg (B.encode_ne _ hne), B.decode_encode]
  simp only [length_cookieBytes, ne_eq, not_true_eq_false, if_false]
  rw [cookieBytes, decodeCookie_encodeCookie length_replicate]

lemma fromDTO_toDTO (s : WebSession) : fromDTO B (toDTO B s) = .ok s := by
  have hcookie : cookieOf B (toDTO B s).cookieB64 = .ok s.cookie := by
    unfold toDTO
    rcases s.cookie with _ | c
    · rfl
    · exact cookieOf_encode c
  unfold fromDTO
  rw [hcookie]
  rfl

end

def key (pre id : String) : String := pre ++ ":session:" ++ id

lemma key_inj {pre id id' : String} : key pre id = key pre id' ↔ id = id' := by
  refine ⟨fun h => ?_, fun h => h ▸ rfl⟩
  have h' := congrArg String.toList h
  simpa [key, String.toList_inj] using h'

def remaining (expiresAt now : ℤ) : ℤ := min (expiresAt - now) (2 ^ 63 - 1)

def WebSession.stamp (s : WebSession) (now : ℤ) : WebSession :=
  { s with issuedAt := some (s.issuedAt.getD now), lastSeenAt := some now }

def WebSession.lifetime (s : WebSession) (now : ℤ) : Except SessionErr (Option ℤ) :=
  match s.expiresAt with
  | none => .ok none
  | some t => if t - now ≤ 0 then .error .expired else .ok (some (remaining t now))

inductive Received
  | corrupt (text : String)
  | expired
  | session (s : WebSession) (ttl : Option ℤ)

/-- `Get` from the document on: the session is written back with the time of this use, unless it has
no end or ends now. -/
def received (B : Base64) (now : ℤ) (d : SessionDTO) : Received :=
  match fromDTO B d with
  | .error text => .corrupt text
  | .ok s =>
    if Stores.expired s.expiresAt now then .expired
    else
      .session { s with lastSeenAt := some now }
        ((s.expiresAt.filter fun t => 0 < t - now).map fun t => remaining t now)

def base256 : Base64 where
  encode bs := String.ofList (bs.map fun b => Char.ofNat b.toNat)
  decode text := .ok (text.toList.map fun c => UInt8.ofNat c.toNat)
  decode_encode bs := by
    have hbyte : ∀ b : UInt8, UInt8.ofNat (Char.ofNat b.toNat).toNat = b := by
      intro b
      have hvalid : b.toNat.isValidChar := .inl (by have := b.toNat_lt; omega)
      rw [Char.ofNat, dif_pos hvalid]
      exact UInt8.ofNat_toNat
    simp [Function.comp_def, hbyte]
  encode_ne bs hbs h := by
    have hlist := congrArg String.toList h
    simp only [String.toList_ofList] at hlist
    exact hbs (List.map_eq_nil_iff.mp hlist)

end Wtg.Auth.SessionDocs
