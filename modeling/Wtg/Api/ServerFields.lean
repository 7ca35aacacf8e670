import Wtg.Api.Frames

/-! # Header fields the server sets

Of the header of a message the routing key (`trxc`), the user (`usid`) and the kind of client
(`ctyp`) are set by the server. -/

namespace Wtg.Api.ServerFields

open Lib Svcio Api.Frames List Wire

variable {W : World} {rkey usid channel : String} {clientHeader : Wire.Object}

lemma lookup_filter_append {p : String × Wire.Json → Bool} {key : String} :
    ∀ {client defaults : Wire.Object}, (∀ v, p (key, v) = false) →
      (client.filter p ++ defaults).lookup key = defaults.lookup key
  | [], _, _ => rfl
  | (k, v) :: client, defaults, hp => by
    rw [filter_cons]
    split_ifs with hkeep
    · have hne : key ≠ k := by
        rintro rfl
        rw [hp v] at hkeep
        exact absurd hkeep (by simp)
      rw [cons_append, lookup_cons, beq_false_of_ne hne]
      exact lookup_filter_append hp
    · exact lookup_filter_append hp

lemma wireHeader_trxc :
    (wireHeader W rkey usid channel clientHeader).lookup "trxc" = some (.str rkey) := by
  unfold wireHeader
  rw [lookup_filter_append (by simp)]
  rfl

lemma wireHeader_ctyp : (wireHeader W rkey usid channel clientHeader).lookup "ctyp" =
    some (.str (ctypForChannel W channel)) := by
  unfold wireHeader
  rw [lookup_filter_append (by simp)]
  rfl

lemma wireHeader_usid (husid : usid ≠ "") :
    (wireHeader W rkey usid channel clientHeader).lookup "usid" = some (.str usid) := by
  unfold wireHeader
  rw [lookup_filter_append (by simp [husid]), if_pos husid]
  rfl

lemma ctypForChannel_ne_empty : ctypForChannel W channel ≠ "" := by
  unfold ctypForChannel
  split <;> decide

variable {countField : String} {E : Wire.Encodings}

lemma writeField_of_lookup {header : Wire.Object} {name s : String}
    {size rep : ℤ} (next : Option Wire.Field) (hsize : 0 < size)
    (hlookup : header.lookup name = some (.str s)) (hs : s ≠ "") :
    writeField E header next ⟨name, size, rep, countField, []⟩ =
      encodeWire E s size.toNat := by
  have htext : textOf E name next header = s := by
    have hstr : strFromInput E header name = s := by rw [strFromInput, hlookup]
    simp [textOf, hstr, hs]
  rw [writeField, if_neg (by simp), if_neg (by omega), htext]

lemma bytes_of_lookup {header input : Wire.Object}
    {headerFields inputFields pre post : List Wire.Field} {name s : String} {size rep : ℤ}
    (hfixed : Wire.AllFixed headerFields)
    (hfields : headerFields = pre ++ ⟨name, size, rep, countField, []⟩ :: post) (hsize : 0 < size)
    (hlookup : header.lookup name = some (.str s)) (hs : s ≠ "") :
    ((serializeWithHeader E headerFields header inputFields input).drop (width pre)).take
      size.toNat = encodeWire E s size.toNat := by
  obtain ⟨front, hwrite, hlen⟩ :=
    writeFields_append E header pre ⟨name, size, rep, countField, []⟩ post
  rw [← hfields] at hwrite hlen
  rw [serializeWithHeader, hwrite, ← hlen hfixed,
    writeField_of_lookup post.head? hsize hlookup hs, append_assoc, drop_left,
    append_assoc]
  exact take_left' (length_encodeWire E s size.toNat)

lemma wireBuildBody_eq_some {reg : Option (GoMap String Wire.SvcSpec)} {data body : Wire.Bytes}
    {spec : Wire.SvcSpec}
    (h : wireBuildBody W reg rkey usid channel clientHeader data = some (body, spec)) :
    rkey ≠ "" ∧ ∃ input, body = serializeWithHeader W.enc spec.headerFields
      (wireHeader W rkey usid channel clientHeader) spec.input input := by
  unfold wireBuildBody at h
  split at h
  · exact absurd h (by simp)
  · split_ifs at h with hempty
    split at h
    · exact absurd h (by simp)
    · split at h
      · exact absurd h (by simp)
      · obtain ⟨rfl, rfl⟩ := Prod.mk.inj (Option.some.inj h)
        exact ⟨fun hr => hempty (.inl hr), _, rfl⟩

/-- **Clients cannot reach the fields the server sets:** `trxc`, `usid` and `ctyp` hold what the
server knows, whatever header and data a request has. -/
theorem server_fields {reg : Option (GoMap String Wire.SvcSpec)} {data body : Wire.Bytes}
    {spec : Wire.SvcSpec} (husid : usid ≠ "")
    (hbody : wireBuildBody W reg rkey usid channel clientHeader data = some (body, spec))
    (hfixed : Wire.AllFixed spec.headerFields) {pre post : List Wire.Field} {name : String}
    {size rep : ℤ} {countField : String} (hsize : 0 < size)
    (hfields : spec.headerFields = pre ++ ⟨name, size, rep, countField, []⟩ :: post) :
    let bytes := (body.drop (width pre)).take size.toNat
    (name = "trxc" → bytes = encodeWire W.enc rkey size.toNat) ∧
      (name = "usid" → bytes = encodeWire W.enc usid size.toNat) ∧
      (name = "ctyp" → bytes = encodeWire W.enc (ctypForChannel W channel) size.toNat) := by
  obtain ⟨hrkey, input, rfl⟩ := wireBuildBody_eq_some hbody
  refine ⟨?_, ?_, ?_⟩
  · rintro rfl
    exact bytes_of_lookup hfixed hfields hsize wireHeader_trxc hrkey
  · rintro rfl
    exact bytes_of_lookup hfixed hfields hsize (wireHeader_usid husid) husid
  · rintro rfl
    exact bytes_of_lookup hfixed hfields hsize wireHeader_ctyp ctypForChannel_ne_empty

def memoSpec : Wire.SvcSpec :=
  ⟨[⟨"memo", 0, 2, "", [⟨"m", 1, 0, "", []⟩]⟩, ⟨"trxc", 3, 0, "", []⟩, ⟨"usid", 2, 0, "", []⟩], []⟩

theorem server_fields_memo : ∃ body,
    wireBuildBody asciiWorld (some ((∅ : GoMap String Wire.SvcSpec).insert "W1" memoSpec)) "W1" "u1"
        "WEB" [("trxc", .str "X9"), ("memo", .arr [.obj [("m", .str "too long")]])]
        (utf8 "\x7b\x7d") = some (body, memoSpec) ∧
      (body.drop 2).take 3 = Wire.encodeWire asciiWorld.enc "W1" 3 := by
  obtain ⟨body, hbody⟩ : ∃ body,
      wireBuildBody asciiWorld (some ((∅ : GoMap String Wire.SvcSpec).insert "W1" memoSpec)) "W1"
        "u1" "WEB" [("trxc", .str "X9"), ("memo", .arr [.obj [("m", .str "too long")]])]
        (utf8 "\x7b\x7d") = some (body, memoSpec) := ⟨_, rfl⟩
  have hfields : memoSpec.headerFields = [⟨"memo", 0, 2, "", [⟨"m", 1, 0, "", []⟩]⟩] ++
    ⟨"trxc", 3, 0, "", []⟩ :: [⟨"usid", 2, 0, "", []⟩] := rfl
  have hfixed : Wire.AllFixed memoSpec.headerFields := by
    simp [memoSpec, Wire.AllFixed, Wire.Field.Fixed]
  have husid : "u1" ≠ "" := by decide
  exact ⟨body, hbody, (server_fields husid hbody hfixed (by decide) hfields).1 rfl⟩

end Wtg.Api.ServerFields
