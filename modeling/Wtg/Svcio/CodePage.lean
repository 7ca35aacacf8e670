import Wtg.Svcio.RoundTrip

/-! # Korean texts on the wire

A text is written in code page 949, as much of it as fits its field, and read back by a reader that
takes bytes for UTF-8 whenever they are well-formed. -/

namespace Wtg.Svcio.CodePage

open Lib Svcio.Wire Svcio.Reader Svcio.RoundTrip List Option Lib.Utf8

def Encodable (E : Encodings) (c : Char) : Prop := (E.cp949 c).isSome = true

def codes (E : Encodings) (cs : List Char) : Bytes := cs.flatMap (runeBytes E)

/-- The tables of code page 949: ASCII is itself; any other character is two bytes, the first beyond
ASCII, the second no blank or control character, and not those of UTF-8. -/
structure Cp949 (E : Encodings) (D : Decodings) : Prop where
  ascii : KeepsAscii E
  two : ∀ c bs, ¬ Utf8.IsAscii c → E.cp949 c = some bs →
    ∃ lead trail : UInt8, bs = [lead, trail] ∧ 0x81 ≤ lead.toNat ∧ 0x41 ≤ trail.toNat
  foreign : ∀ c, ¬ Utf8.IsAscii c → E.cp949 c ≠ some (String.utf8EncodeChar c)
  decode : ∀ cs, (∀ c ∈ cs, Encodable E c) → D.decode (codes E cs) = some cs

/-- The longest front part of a text whose bytes fit. -/
def LongestFit (E : Encodings) (cs : List Char) (room : ℕ) (p : List Char) : Prop :=
  p <+: cs ∧ (codes E p).length ≤ room ∧
    ∀ q, q <+: cs → (codes E q).length ≤ room → q.length ≤ p.length

/-- The texts in question: all characters are in the code page, none is NUL, the first and the last
are no blanks. -/
structure Sendable (E : Encodings) (cs : List Char) : Prop where
  encodable : ∀ c ∈ cs, Encodable E c
  noNul : '\x00' ∉ cs
  head : cs.head? ≠ some ' '
  last : cs.getLast? ≠ some ' '

/-- The reader recognises the code page: the text is ASCII, or its bytes are not UTF-8. -/
def Recognised (E : Encodings) (cs : List Char) : Prop :=
  (∀ c ∈ cs, Utf8.IsAscii c) ∨ Utf8.decode (codes E cs) = none

/-! ## A code page -/

section

variable {E : Encodings} {D : Decodings}

@[simp] lemma codes_nil : codes E [] = [] := rfl

@[simp] lemma codes_cons (c : Char) (cs : List Char) :
    codes E (c :: cs) = runeBytes E c ++ codes E cs := rfl

@[simp] lemma codes_append (cs ds : List Char) : codes E (cs ++ ds) = codes E cs ++ codes E ds :=
  flatMap_append

variable {c : Char}

lemma runeBytes_ascii (hE : KeepsAscii E) (hc : IsAscii c) :
    runeBytes E c = [asciiByte c] := by
  rw [runeBytes, hE c hc]

lemma codes_ascii (hE : KeepsAscii E) : ∀ {cs : List Char}, (∀ c ∈ cs, IsAscii c) →
    codes E cs = encode cs
  | [], _ => rfl
  | c :: cs, h => by
    have hc := h c mem_cons_self
    rw [codes_cons, encode_cons, runeBytes_ascii hE hc, utf8EncodeChar_ascii hc,
      codes_ascii hE fun d hd => h d (mem_cons_of_mem c hd)]

lemma Cp949.runeBytes_two (hpage : Cp949 E D) (hc : ¬ IsAscii c) (henc : Encodable E c) :
    ∃ lead trail : UInt8, runeBytes E c = [lead, trail] ∧
      E.cp949 c = some [lead, trail] ∧ 0x81 ≤ lead.toNat ∧ 0x41 ≤ trail.toNat := by
  obtain ⟨bs, hbs⟩ := isSome_iff_exists.mp henc
  obtain ⟨lead, trail, rfl, hlead, htrail⟩ := hpage.two c bs hc hbs
  exact ⟨lead, trail, by rw [runeBytes, hbs], hbs, hlead, htrail⟩

lemma encodeRunes_eq_codes : ∀ {cs : List Char} {room : ℕ} {p : List Char},
    LongestFit E cs room p → encodeRunes E cs room = codes E p
  | [], room, p, ⟨hp, _, _⟩ => by
    rw [prefix_nil.mp hp]
    rfl
  | c :: cs, room, p, ⟨hp, hfits, hmax⟩ => by
    rw [encodeRunes_cons]
    split_ifs with hroom
    · rcases prefix_cons_iff.mp hp with rfl | ⟨t, rfl, -⟩
      · rfl
      · rw [codes_cons, length_append] at hfits
        omega
    · have hone : [c].length ≤ p.length := by
        refine hmax [c] (by simp) ?_
        rw [codes_cons, codes_nil, append_nil]
        omega
      rcases prefix_cons_iff.mp hp with rfl | ⟨t, rfl, ht⟩
      · simp at hone
      · rw [codes_cons, length_append] at hfits
        have hrest : LongestFit E cs (room - (runeBytes E c).length) t := by
          refine ⟨ht, by omega, fun q hq hlen => ?_⟩
          have hlonger := hmax (c :: q) (cons_prefix_cons.mpr ⟨rfl, hq⟩)
            (by rw [codes_cons, length_append]; omega)
          simpa using hlonger
        rw [codes_cons, encodeRunes_eq_codes hrest]

lemma isAscii_blank : IsAscii ' ' := by decide

lemma encode_blanks (k : ℕ) : encode (replicate k ' ') = replicate k 32 := by
  rw [encode_ascii fun c hc => by rw [(mem_replicate.mp hc).2]; exact isAscii_blank,
    map_replicate]
  rfl

lemma encodeWire_eq {s : String} {size : ℕ} {p : List Char} (hp : LongestFit E s.toList size p) :
    ∃ k, encodeWire E s size = codes E p ++ encode (replicate k ' ') := by
  refine ⟨size - (codes E p).length, ?_⟩
  rw [encodeWire, encodeRunes_eq_codes hp, encode_blanks]

lemma length_codes_le (hpage : Cp949 E D) : ∀ {cs : List Char}, (∀ c ∈ cs, Encodable E c) →
    (codes E cs).length ≤ (encode cs).length
  | [], _ => le_rfl
  | c :: cs, henc => by
    have hrest := length_codes_le hpage fun d hd => henc d (mem_cons_of_mem c hd)
    have hc : (runeBytes E c).length ≤ (String.utf8EncodeChar c).length := by
      by_cases hascii : IsAscii c
      · rw [runeBytes_ascii hpage.ascii hascii, utf8EncodeChar_ascii hascii]
      · obtain ⟨lead, trail, hbytes, -⟩ := hpage.runeBytes_two hascii (henc c mem_cons_self)
        rw [hbytes]
        exact two_le_length hascii
    rw [codes_cons, encode_cons, length_append, length_append]
    omega

lemma ascii_of_encode_eq (hpage : Cp949 E D) : ∀ {cs : List Char}, (∀ c ∈ cs, Encodable E c) →
    encode cs = codes E cs → ∀ c ∈ cs, IsAscii c
  | [], _, _ => fun _ hc => absurd hc not_mem_nil
  | c :: cs, henc, heq => by
    have hencs : ∀ d ∈ cs, Encodable E d := fun d hd => henc d (mem_cons_of_mem c hd)
    have hle := length_codes_le hpage hencs
    have hlen := congrArg length heq
    rw [codes_cons, encode_cons, length_append, length_append] at hlen
    rw [codes_cons, encode_cons] at heq
    have hc : IsAscii c := by
      by_contra hascii
      obtain ⟨lead, trail, hbytes, hcode, -⟩ :=
        hpage.runeBytes_two hascii (henc c mem_cons_self)
      have htwo := two_le_length hascii
      rw [hbytes, length_cons, length_singleton] at hlen
      rw [hbytes] at heq
      have hsame := (append_inj heq (by simp only [length_cons, length_nil]; omega)).1
      exact hpage.foreign c hascii (hcode.trans (congrArg some hsame.symm))
    have hrest : encode cs = codes E cs := by
      rw [runeBytes_ascii hpage.ascii hc, utf8EncodeChar_ascii hc] at heq
      exact append_cancel_left heq
    exact fun d hd => (mem_cons.mp hd).elim (fun h => h ▸ hc)
      fun hd => ascii_of_encode_eq hpage hencs hrest d hd

def isPadByte (b : UInt8) : Bool := b = 32 || b = 0

lemma isPadByte_of_high {b : UInt8} (h : 33 ≤ b.toNat) : isPadByte b = false := by
  have hblank : b ≠ 32 := by rintro rfl; revert h; decide
  have hnul : b ≠ 0 := by rintro rfl; revert h; decide
  simp [isPadByte, hblank, hnul]

lemma isPad_ascii (h : isPad c = true) : IsAscii c := by
  simp only [isPad, Bool.or_eq_true, decide_eq_true_eq] at h
  rcases h with rfl | rfl <;> decide

lemma isPadByte_asciiByte (hc : IsAscii c) : isPadByte (asciiByte c) = isPad c := by
  have hiff : ∀ d : Char, IsAscii d → (asciiByte c = asciiByte d ↔ c = d) := by
    intro d hd
    refine ⟨fun h => ?_, fun h => by rw [h]⟩
    have hnat := congrArg UInt8.toNat h
    rw [asciiByte_toNat hc, asciiByte_toNat hd] at hnat
    exact Char.toNat_inj.mp hnat
  have hblank := hiff ' ' (by decide)
  have hnul := hiff '\x00' (by decide)
  rw [isPadByte, isPad, ← Bool.decide_congr hblank, ← Bool.decide_congr hnul]
  rfl

variable {t : List Char}

lemma isPadByte_encode (hlast : ∀ c ∈ t.getLast?, isPad c = false) :
    ∀ b ∈ (encode t).getLast?, isPadByte b = false := by
  intro b hb
  rcases eq_nil_or_concat t with rfl | ⟨t, c, rfl⟩
  · simp at hb
  have hpad : isPad c = false := hlast c (by simp)
  have hne : String.utf8EncodeChar c ≠ [] := String.utf8EncodeChar_ne_nil
  rw [concat_eq_append, encode_append, encode_cons, encode_nil, append_nil,
    getLast?_append_of_ne_nil _ hne] at hb
  by_cases hc : IsAscii c
  · rw [utf8EncodeChar_ascii hc] at hb
    obtain rfl : asciiByte c = b := some.inj hb
    rw [isPadByte_asciiByte hc, hpad]
  · have hhigh := high_of_mem hc (mem_of_getLast? hb)
    exact isPadByte_of_high (by omega)

lemma isPadByte_encode_pads {z : List Char} (hz : ∀ c ∈ z, isPad c = true) :
    ∀ b ∈ encode z, isPadByte b = true := by
  rw [encode_ascii fun c hc => isPad_ascii (hz c hc)]
  intro b hb
  obtain ⟨c, hc, rfl⟩ := mem_map.mp hb
  rw [isPadByte_asciiByte (isPad_ascii (hz c hc)), hz c hc]

lemma rdropWhile_ne (hpage : Cp949 E D) {p u : List Char} (henc : ∀ c ∈ p, Encodable E c)
    (hbytes : encode u = codes E p) (hascii : ¬ ∀ c ∈ p, IsAscii c) :
    u.rdropWhile isPad ≠ p.rdropWhile isPad := by
  intro heq
  set t := p.rdropWhile isPad with ht
  have hp : t ++ p.rtakeWhile isPad = p := rdropWhile_append_rtakeWhile
  have hu : t ++ u.rtakeWhile isPad = u := by
    rw [← heq]
    exact rdropWhile_append_rtakeWhile
  have hppads : ∀ c ∈ p.rtakeWhile isPad, isPad c = true := fun c hc => mem_rtakeWhile_imp hc
  have hupads : ∀ c ∈ u.rtakeWhile isPad, isPad c = true := fun c hc => mem_rtakeWhile_imp hc
  have hlast : ∀ c ∈ t.getLast?, isPad c = false := by
    intro c hc
    have hne : p.rdropWhile isPad ≠ [] := by
      rintro hnil
      rw [ht, hnil] at hc
      exact absurd hc (by simp)
    have hnot := rdropWhile_last_not isPad p hne
    rw [ht, getLast?_eq_some_getLast hne] at hc
    rw [← some.inj hc]
    simpa using hnot
  have henct : ∀ c ∈ t, Encodable E c :=
    fun c hc => henc c (hp ▸ mem_append_left _ hc)
  -- the bytes of `t` are the same in both codes: else one of its last would be a pad
  have hsame : encode t = codes E t := by
    have hsplit := hbytes
    rw [← hu, ← hp, encode_append, codes_append,
      codes_ascii hpage.ascii fun c hc => isPad_ascii (hppads c hc)] at hsplit
    rcases append_eq_append_iff.mp hsplit with ⟨rest, hrest, -⟩ | ⟨rest, hrest, hpads⟩
    · have hle := length_codes_le hpage henct
      rw [hrest, length_append] at hle
      rw [hrest, length_eq_zero_iff.mp (by omega : rest.length = 0), append_nil]
    · rcases eq_nil_or_concat rest with rfl | ⟨front, b, rfl⟩
      · rw [hrest, append_nil]
      · have hno := isPadByte_encode hlast b (by simp [hrest])
        rw [isPadByte_encode_pads hppads b (by simp [hpads])] at hno
        cases hno
  refine hascii fun c hc => ?_
  rw [← hp] at hc
  rcases mem_append.mp hc with hc | hc
  · exact ascii_of_encode_eq hpage henct hsame c hc
  · exact isPad_ascii (hppads c hc)

lemma decodeWire_of_utf8 {b : Bytes} {u : List Char} (h : encode u = b) :
    decodeWire D b = u := by
  rw [← h, decodeWire_utf8]

lemma decodeWire_of_not_utf8 {b : Bytes} {cs : List Char} (h : decode b = none)
    (hdecode : D.decode b = some cs) : decodeWire D b = cs := by
  have hne : b ≠ [] := by
    rintro rfl
    rw [show ([] : Bytes) = encode [] from rfl, decode_encode] at h
    exact absurd h (by simp)
  rw [decodeWire, if_neg hne, h, hdecode]

lemma head_not_pad (hpage : Cp949 E D) {p u : List Char} (henc : ∀ c ∈ p, Encodable E c)
    (hhead : ∀ c ∈ p.head?, isPad c = false) (hbytes : encode u = codes E p) :
    ∀ c ∈ u.head?, isPad c = false := by
  intro d hd
  obtain ⟨u', rfl⟩ : ∃ u', u = d :: u' := ⟨u.tail, (cons_head?_tail hd).symm⟩
  by_contra hpad
  rw [Bool.not_eq_false] at hpad
  have hdascii := isPad_ascii hpad
  rw [encode_cons, utf8EncodeChar_ascii hdascii] at hbytes
  rcases p with _ | ⟨c, p⟩
  · simp at hbytes
  · have hc : isPad c = false := hhead c rfl
    have hbyte : isPadByte (asciiByte d) = true := by rw [isPadByte_asciiByte hdascii, hpad]
    by_cases hascii : IsAscii c
    · rw [codes_cons, runeBytes_ascii hpage.ascii hascii] at hbytes
      rw [(cons.inj hbytes).1, isPadByte_asciiByte hascii, hc] at hbyte
      exact absurd hbyte (by simp)
    · obtain ⟨lead, trail, hrune, -, hlead, -⟩ :=
        hpage.runeBytes_two hascii (henc c mem_cons_self)
      rw [codes_cons, hrune] at hbytes
      rw [(cons.inj hbytes).1, isPadByte_of_high (by omega)] at hbyte
      exact absurd hbyte (by simp)

lemma blanks_pads (k : ℕ) : ∀ c ∈ replicate k ' ', isPad c = true := by
  intro c hc
  rw [(mem_replicate.mp hc).2]
  rfl

lemma trimPad_decodeWire_iff (hpage : Cp949 E D) {s : String} {size : ℕ} {p : List Char}
    (hp : LongestFit E s.toList size p) (henc : ∀ c ∈ p, Encodable E c)
    (hhead : ∀ c ∈ p.head?, isPad c = false) :
    trimPad (decodeWire D (encodeWire E s size)) = p.rdropWhile isPad ↔ Recognised E p := by
  obtain ⟨k, hwire⟩ := encodeWire_eq hp
  have hblanks : ∀ c ∈ replicate k ' ', IsAscii c :=
    fun c hc => isPad_ascii (blanks_pads k c hc)
  rw [hwire]
  rcases hvalid : decode (codes E p) with _ | u
  · -- The bytes are no UTF-8, with the blanks behind them neither.
    have hcodes : codes E p ++ encode (replicate k ' ') =
        codes E (p ++ replicate k ' ') := by
      rw [codes_append, codes_ascii hpage.ascii hblanks]
    have hdecode : D.decode (codes E p ++ encode (replicate k ' ')) =
        some (p ++ replicate k ' ') := by
      rw [hcodes]
      refine hpage.decode _ fun c hc => ?_
      rcases mem_append.mp hc with hc | hc
      · exact henc c hc
      · rw [Encodable, hpage.ascii c (hblanks c hc)]
        rfl
    rw [decodeWire_of_not_utf8 (decode_append_eq_none hblanks hvalid) hdecode,
      trimPad_append hhead (blanks_pads k)]
    exact ⟨fun _ => .inr hvalid, fun _ => rfl⟩
  · have hbytes : encode u = codes E p := decode_eq_some.mp hvalid
    rw [decodeWire_of_utf8 (show encode (u ++ replicate k ' ') = _ by
        rw [encode_append, hbytes]),
      trimPad_append (head_not_pad hpage henc hhead hbytes) (blanks_pads k)]
    refine ⟨fun hsame => .inl ?_, fun hrec => ?_⟩
    · by_contra hascii
      exact rdropWhile_ne hpage henc hbytes hascii hsame
    · have hascii := hrec.resolve_right (by rw [hvalid]; simp)
      rw [codes_ascii hpage.ascii hascii] at hbytes
      have hu : some u = some p := by
        rw [← decode_encode u, hbytes, decode_encode]
      rw [some.inj hu]

lemma LongestFit.self {cs : List Char} {size : ℕ} (h : (codes E cs).length ≤ size) :
    LongestFit E cs size cs :=
  ⟨prefix_refl cs, h, fun _ hq _ => hq.length_le⟩

lemma rdropWhile_isPad : ∀ {cs : List Char}, '\x00' ∉ cs →
    cs.rdropWhile isPad = cs.rdropWhile (· = ' ') := by
  intro cs
  induction cs using reverseRecOn with
  | nil => exact fun _ => rfl
  | append_singleton cs c ih =>
    intro hnul
    rw [mem_append, not_or, mem_singleton] at hnul
    have hc : isPad c = decide (c = ' ') := by simp [isPad, Ne.symm hnul.2]
    rw [rdropWhile_concat, rdropWhile_concat, hc, ih hnul.1]

/-- **Texts survive the wire if, and only if, the reader recognises the code page:** a text that
fits comes back whole, of another one the longest part that fits, apart from blanks at its end. -/
theorem decodeWire_encodeWire_iff (hpage : Cp949 E D) {s : String} (hs : Sendable E s.toList)
    (size : ℕ) :
    ((codes E s.toList).length ≤ size →
      (trimPad (decodeWire D (encodeWire E s size)) = s.toList ↔ Recognised E s.toList)) ∧
    ∀ p, LongestFit E s.toList size p →
      (trimPad (decodeWire D (encodeWire E s size)) = p.rdropWhile (· = ' ') ↔
        Recognised E p) := by
  have hgeneral : ∀ p, LongestFit E s.toList size p →
      (trimPad (decodeWire D (encodeWire E s size)) = p.rdropWhile (· = ' ') ↔
        Recognised E p) := by
    intro p hp
    have hnul : '\x00' ∉ p := fun h => hs.noNul (hp.1.subset h)
    rw [← rdropWhile_isPad hnul]
    refine trimPad_decodeWire_iff hpage hp (fun c hc => hs.encodable c (hp.1.subset hc)) ?_
    intro c hc
    have hmem : c ∈ p := mem_of_mem_head? hc
    have hhead : s.toList.head? = some c := by
      rcases p with _ | ⟨d, p⟩
      · simp at hc
      · obtain ⟨rest, hrest⟩ := hp.1
        rw [← hrest, ← hc]
        rfl
    have hblank : c ≠ ' ' := fun h => hs.head (h ▸ hhead)
    have hnul' : c ≠ '\x00' := fun h => hnul (h ▸ hmem)
    simp [isPad, hblank, hnul']
  refine ⟨fun hsize => ?_, hgeneral⟩
  have hself := hgeneral s.toList (LongestFit.self hsize)
  have hkeep : s.toList.rdropWhile (· = ' ') = s.toList := by
    refine rdropWhile_eq_self fun c hc => ?_
    have hblank : c ≠ ' ' := fun h => hs.last (h ▸ hc)
    simp [hblank]
  rwa [hkeep] at hself

end

def syllables : Encodings :=
  { asciiEncodings with
    cp949 := fun c =>
      if Utf8.IsAscii c then some [Utf8.asciiByte c]
      else if c = '가' then some [0xB0, 0xA1]
      else if c = '짜' then some [0xC2, 0xA5]
      else none }

def readSyllables : Bytes → List Char
  | 0xB0 :: 0xA1 :: rest => '가' :: readSyllables rest
  | 0xC2 :: 0xA5 :: rest => '짜' :: readSyllables rest
  | b :: rest => Char.ofNat b.toNat :: readSyllables rest
  | [] => []

def syllablesBack : Decodings := ⟨fun b => some (readSyllables b), fun _ => []⟩

lemma readSyllables_ascii {c : Char} (hc : IsAscii c) (rest : Bytes) :
    readSyllables (asciiByte c :: rest) = c :: readSyllables rest := by
  have hnat := asciiByte_toNat hc
  have hlow : (asciiByte c).toNat < 128 := hnat ▸ hc
  have hga : asciiByte c ≠ 0xB0 := fun h => absurd (h ▸ hlow) (by decide)
  have hjja : asciiByte c ≠ 0xC2 := fun h => absurd (h ▸ hlow) (by decide)
  rw [readSyllables, hnat, Char.ofNat_toNat]
  · exact fun _ h => absurd h hga
  · exact fun _ h => absurd h hjja

lemma codes_syllables : ∀ {cs : List Char}, (∀ c ∈ cs, Encodable syllables c) →
    readSyllables (codes syllables cs) = cs
  | [], _ => rfl
  | c :: cs, henc => by
    have hrest := codes_syllables fun d hd => henc d (mem_cons_of_mem c hd)
    have hc := henc c mem_cons_self
    by_cases hascii : IsAscii c
    · rw [codes_cons, runeBytes_ascii (fun d hd => if_pos hd) hascii, singleton_append,
        readSyllables_ascii hascii, hrest]
    · by_cases hga : c = '가'
      · subst hga
        exact congrArg _ hrest
      · by_cases hjja : c = '짜'
        · subst hjja
          exact congrArg _ hrest
        · simp [Encodable, syllables, hascii, hga, hjja] at hc

lemma cp949_syllables : Cp949 syllables syllablesBack where
  ascii _ hc := if_pos hc
  two c bs hascii hbs := by
    simp only [syllables, hascii, if_false] at hbs
    split_ifs at hbs
    · exact ⟨0xB0, 0xA1, (some.inj hbs).symm, by decide, by decide⟩
    · exact ⟨0xC2, 0xA5, (some.inj hbs).symm, by decide, by decide⟩
  foreign c hascii hbs := by
    simp only [syllables, hascii, if_false] at hbs
    split_ifs at hbs with hga hjja
    · subst hga
      exact absurd hbs (by decide)
    · subst hjja
      exact absurd hbs (by decide)
  decode _ henc := congrArg some (codes_syllables henc)

lemma sendable_syllable {c : Char} (hc : c = '가' ∨ c = '짜') : Sendable syllables [c] := by
  rcases hc with rfl | rfl
  · exact ⟨fun c hc => mem_singleton.mp hc ▸ rfl, by decide, by decide, by decide⟩
  · exact ⟨fun c hc => mem_singleton.mp hc ▸ rfl, by decide, by decide, by decide⟩

theorem ga_survives : Utf8.decode (codes syllables "가".toList) = none ∧
    trimPad (decodeWire syllablesBack (encodeWire syllables "가" 2)) = "가".toList := by
  have hnone : decode (codes syllables "가".toList) = none := by decide +kernel
  have hs : Sendable syllables "가".toList := sendable_syllable (.inl rfl)
  exact ⟨hnone, ((decodeWire_encodeWire_iff cp949_syllables hs 2).1 (by decide)).mpr
    (.inr hnone)⟩

theorem jja_not_back : Cp949 syllables syllablesBack ∧ Sendable syllables "짜".toList ∧
    (codes syllables "짜".toList).length ≤ 2 ∧
    trimPad (decodeWire syllablesBack (encodeWire syllables "짜" 2)) = ['¥'] ∧
    ['¥'] ≠ "짜".toList :=
  ⟨cp949_syllables, sendable_syllable (.inr rfl), by decide, by decide +kernel, by decide⟩

end Wtg.Svcio.CodePage
