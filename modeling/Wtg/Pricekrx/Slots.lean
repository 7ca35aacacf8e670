import Wtg.Pricekrx.Ingest

/-! # No instrument shows another's data

A new master moves the codes above it by one slot. -/

namespace Wtg.Pricekrx.Ingest

open Lib Lib.Buffer Lib.KeyedLog Lib.Memory Lib.Ranked Lib.SlotTable List Function
open Krx.Decode Krxshm.Shm

variable {F : Type*} (fl : Floats F)

def codes (h : Hub F) : List Code := ranked codeKey h.masters.keys

def lastQuote (w : Writer F) (c : Code) : Option (Quote F) := latest Quote.code c w.updates

def lastBook (w : Writer F) (c : Code) : Option (Book F) := latest Book.code c w.bookUpdates

def ShowsOwn {ρ : Type*} (A : Area ρ) (m : Mem) (i : ℕ) (last : Option ρ) : Prop :=
  (∀ a < A.size, m (A.addr i + a) = 0) ∨
    ∃ r, last = some r ∧ ∀ a < A.size, m (A.addr i + a) = A.image r a

/-- No instrument shows another's data: the slots in use carry the master codes, strictly ascending
byte by byte, and the areas of a slot hold zeros or what was last written for its code. -/
structure Faithful (h : Hub F) : Prop where
  useN_eq : useN h.w.mem = h.masters.keys.length
  code_eq : ∀ i c, (codes h)[i]? = some c → codeField h.w.mem i = putFixed stdCdLen c
  ascending : ∀ i j, i < j → j < useN h.w.mem →
    codeKey (codeField h.w.mem i) < codeKey (codeField h.w.mem j)
  quotes : ∀ i c, (codes h)[i]? = some c →
    ShowsOwn (quoteArea fl) h.w.mem i (lastQuote h.w c)
  books : ∀ i c, (codes h)[i]? = some c → ShowsOwn (bookArea fl) h.w.mem i (lastBook h.w c)

def InTimeFor (h : Hub F) (c : Code) : Prop :=
  c ∉ h.masters.keys → ∀ d ∈ h.masters.keys, putFixed stdCdLen c ≠ putFixed stdCdLen d ∧
    (codeKey c < codeKey d → (lastBook h.w d).isNone = true ∧ ((h.quotes.lookup d).isSome = true →
      ∀ e ∈ c :: h.masters.keys, codeKey c ≤ codeKey e → codeKey e < codeKey d →
        (h.quotes.lookup e).isSome = true))

def InTime (h : Hub F) (b : Bytes) : Prop :=
  b.take 5 = trCode "A006F" → match decodeA006F fl b with
    | .ok m => InTimeFor h m.code
    | .error _ => True

def AllInTime : Hub F → List (Order F × Bytes) → Prop
  | _, [] => True
  | h, m :: msgs => InTime fl h m.2 ∧ AllInTime (ingest fl m.1 h m.2).1 msgs

instance (h : Hub F) (c : Code) : Decidable (InTimeFor h c) :=
  have : Decidable (c ∈ h.masters.keys) := inferInstanceAs (Decidable (c ∈ h.masters))
  inferInstanceAs (Decidable (_ → _))

instance (h : Hub F) (b : Bytes) : Decidable (InTime fl h b) := by
  unfold InTime
  rcases decodeA006F fl b with _ | m
  · exact inferInstanceAs (Decidable (_ → _))
  · exact inferInstanceAs (Decidable (_ → _))

instance decidableAllInTime : ∀ (h : Hub F) (msgs : List (Order F × Bytes)),
    Decidable (AllInTime fl h msgs)
  | _, [] => inferInstanceAs (Decidable True)
  | h, m :: msgs =>
    have := decidableAllInTime (ingest fl m.1 h m.2).1 msgs
    inferInstanceAs (Decidable (InTime fl h m.2 ∧ AllInTime fl (ingest fl m.1 h m.2).1 msgs))

/-- The slots carry the codes, and show what was last written for each; for a listed code that is
the quote the hub holds. -/
structure Good (w : Writer F) (list : List Code) (quote : Code → Option (Quote F)) : Prop where
  holds : Holds fl w list (lastQuote w) (lastBook w)
  ascending : Ascending codeKey list
  quote_code : ∀ c q, quote c = some q → q.code = c
  full : ∀ c b, lastBook w c = some b → b.Full
  lastQuote_eq : ∀ c ∈ list, lastQuote w c = quote c
  lastQuote_none : ∀ c, c ∉ list → lastQuote w c = none
  lastBook_none : ∀ c, c ∉ list → lastBook w c = none

variable {fl} {w w' : Writer F} {list list' : List Code} {quote : Code → Option (Quote F)}

variable {q : Quote F}

lemma lastQuote_of_updates (h : w'.updates = w.updates ++ [q]) :
    lastQuote w' = update (lastQuote w) q.code (some q) := by
  rw [show lastQuote w' = fun c => latest Quote.code c w'.updates from rfl, h, latest_concat]
  rfl

lemma lastBook_of_updates {b : Book F} (h : w'.bookUpdates = w.bookUpdates ++ [b]) :
    lastBook w' = update (lastBook w) b.code (some b) := by
  rw [show lastBook w' = fun c => latest Book.code c w'.bookUpdates from rfl, h, latest_concat]
  rfl

lemma lastQuote_congr (h : w'.updates = w.updates) : lastQuote w' = lastQuote w := by
  funext c
  rw [lastQuote, h, lastQuote]

lemma lastBook_congr (h : w'.bookUpdates = w.bookUpdates) : lastBook w' = lastBook w := by
  funext c
  rw [lastBook, h, lastBook]

lemma code_update (h : ∀ c q, quote c = some q → q.code = c) (q : Quote F) (c : Code)
    (p : Quote F) (hp : update quote q.code (some q) c = some p) : p.code = c := by
  by_cases hc : c = q.code
  · rw [hc, update_self] at hp
    rw [← Option.some.inj hp, hc]
  · rw [update_of_ne hc] at hp
    exact h c p hp

lemma Good.update (h : Good fl w list quote) (hc : q.code ∈ list) :
    ∃ w', w.update fl q = some w' ∧
      Good fl w' list (update quote q.code (some q)) := by
  obtain ⟨w', hw', hholds, hupdates, hbooks⟩ := h.holds.update h.ascending.nodup hc
  rw [← lastQuote_of_updates hupdates, ← lastBook_congr hbooks] at hholds
  have hbook := lastBook_congr hbooks
  refine ⟨w', hw', hholds, h.ascending, code_update h.quote_code q, ?_, fun d hd => ?_,
    fun d hd => ?_, ?_⟩
  · rw [hbook]
    exact h.full
  · rw [lastQuote_of_updates hupdates]
    by_cases hdq : d = q.code
    · rw [hdq, update_self, update_self]
    · rw [update_of_ne hdq, update_of_ne hdq, h.lastQuote_eq d hd]
  · have hdq : d ≠ q.code := fun heq => hd (heq ▸ hc)
    rw [lastQuote_of_updates hupdates, update_of_ne hdq, h.lastQuote_none d hd]
  · rw [hbook]
    exact h.lastBook_none

lemma Good.keep (h : Good fl w list quote) (hc : q.code ∉ list) :
    Good fl w list (Function.update quote q.code (some q)) := by
  refine { h with quote_code := code_update h.quote_code q, lastQuote_eq := fun d hd => ?_ }
  have hdq : d ≠ q.code := fun heq => hc (heq ▸ hd)
  rw [Function.update_of_ne hdq, h.lastQuote_eq d hd]

lemma Good.updateBook (h : Good fl w list quote) {b : Book F} (hc : b.code ∈ list)
    (hfull : b.Full) : ∃ w', w.updateBook fl b = some w' ∧ Good fl w' list quote := by
  obtain ⟨w', hw', hholds, hupdates, hbooks⟩ :=
    h.holds.updateBook h.ascending.nodup hc hfull (h.full _)
  have hquote := lastQuote_congr hupdates
  have hlast := lastBook_of_updates hbooks
  rw [← hquote, ← hlast] at hholds
  refine ⟨w', hw', hholds, h.ascending, h.quote_code, fun c d hd => ?_, ?_, ?_, fun d hd => ?_⟩
  · by_cases hcb : c = b.code
    · rw [hlast, hcb, update_self] at hd
      rw [← Option.some.inj hd]
      exact hfull
    · rw [hlast, update_of_ne hcb] at hd
      exact h.full c d hd
  · rw [hquote]
    exact h.lastQuote_eq
  · rw [hquote]
    exact h.lastQuote_none
  · have hdb : d ≠ b.code := fun heq => hd (heq ▸ hc)
    rw [hlast, update_of_ne hdb, h.lastBook_none d hd]

local instance lawfulBEq_code : LawfulBEq (List UInt8) := inferInstance

def writable (list : List Code) (es : List (Sigma fun _ : Code => Quote F)) : List (Quote F) :=
  (es.filter fun e => e.1 ∈ list).map Sigma.snd

lemma latest_singleton_or (q : Quote F) (label : Code → Option (Quote F)) (c : Code) :
    (latest Quote.code c [q]).or (label c) = update label q.code (some q) c := by
  by_cases hc : q.code = c
  · rw [show [q] = [] ++ [q] from rfl, latest_append_self hc, ← hc, update_self,
      Option.some_or]
  · rw [latest_cons_of_ne hc, update_of_ne (Ne.symm hc), latest_nil, Option.none_or]

lemma holds_updateAll {book : Code → Option (Book F)} (hnodup : list.Nodup) :
    ∀ (es : List (Sigma fun _ : Code => Quote F)) {w : Writer F} {quote : Code → Option (Quote F)},
      Holds fl w list quote book → (∀ e ∈ es, e.2.code = e.1) →
      Holds fl (updateAll fl w es) list
          (fun c => (latest Quote.code c (writable list es)).or (quote c)) book ∧
        (updateAll fl w es).updates = w.updates ++ writable list es ∧
        (updateAll fl w es).bookUpdates = w.bookUpdates
  | [], w, _, h, _ => ⟨h, (append_nil _).symm, rfl⟩
  | e :: es, w, quote, h, hcode => by
    have he : e.2.code = e.1 := hcode e mem_cons_self
    have htail : ∀ x ∈ es, x.2.code = x.1 := fun x hx => hcode x (mem_cons_of_mem _ hx)
    have hhead : updateAll fl w (e :: es) =
        updateAll fl (if w.has e.1 then (w.update fl e.2).getD w else w) es := rfl
    by_cases hmem : e.1 ∈ list
    · obtain ⟨v, hv, hholds, hupdates, hbooks⟩ := h.update hnodup (he ▸ hmem)
      obtain ⟨ih, ihupdates, ihbooks⟩ := holds_updateAll hnodup es hholds htail
      have hlist : writable list (e :: es) = [e.2] ++ writable list es := by
        rw [writable, filter_cons_of_pos (by simpa using hmem)]
        rfl
      rw [hhead, if_pos (has_iff.mpr (h.slot_eq ▸ hmem)), hv, Option.getD_some, hlist]
      refine ⟨?_, by rw [ihupdates, hupdates, append_assoc], ihbooks.trans hbooks⟩
      simpa only [latest_append, Option.or_assoc, latest_singleton_or] using ih
    · have hlist : writable list (e :: es) = writable list es := by
        rw [writable, filter_cons_of_neg (by simpa using hmem), writable]
      rw [hhead, if_neg fun hhas => hmem (h.slot_eq ▸ has_iff.mp hhas), hlist]
      exact holds_updateAll hnodup es h htail

lemma latest_range (order : Order F) (quotes : GoMap Code (Quote F))
    (hcode : ∀ c q, quotes.lookup c = some q → q.code = c) (c : Code) :
    latest Quote.code c (writable list (order.list quotes.entries)) =
      if c ∈ list then quotes.lookup c else none := by
  refine latest_eq_of_mem_iff fun q => ?_
  simp only [writable, mem_filter, mem_map, decide_eq_true_eq, Option.ite_none_right_eq_some]
  constructor
  · rintro ⟨⟨⟨d, p⟩, ⟨hp, hd⟩, rfl⟩, hc⟩
    have hlookup : quotes.lookup d = some p :=
      AList.mem_lookup_iff.mpr ((order.perm _).mem_iff.mp hp)
    obtain rfl : d = c := (hcode d p hlookup).symm.trans hc
    exact ⟨hd, hlookup⟩
  · rintro ⟨hc, hq⟩
    exact ⟨⟨⟨c, q⟩, ⟨(order.perm _).mem_iff.mpr (AList.mem_lookup_iff.mp hq), hc⟩, rfl⟩,
      hcode c q hq⟩

lemma shows_of_eq_on {ρ : Type*} {A : Area ρ} {m : Mem} {label label' : Code → Option ρ}
    (h : A.Shows m list label) (heq : ∀ c ∈ list, label' c = label c) : A.Shows m list label' := by
  refine h.relabel fun i => ?_
  rcases hc : list[i]? with _ | c
  · rfl
  · exact heq c (mem_of_getElem? hc)

/-- What a new master must find, over the listed codes: see `InTimeFor`. -/
structure Fresh (w : Writer F) (list : List Code) (quote : Code → Option (Quote F)) (c : Code) :
    Prop where
  new : c ∉ list
  noBook : ∀ d ∈ list, codeKey c < codeKey d → lastBook w d = none
  quoted : ∀ d ∈ list, codeKey c < codeKey d → (quote d).isSome →
    ∀ e, e = c ∨ e ∈ list ∧ codeKey c < codeKey e → codeKey e < codeKey d → (quote e).isSome

variable {c : Code}

lemma length_le_of_subset (h : list.Nodup) (hmem : ∀ d, d ∈ list' ↔ d = c ∨ d ∈ list) :
    list.length ≤ list'.length :=
  (subperm_of_subset h fun d hd => (hmem d).mpr (.inr hd)).length_le

lemma Good.lastBook_place (h : Good fl w list quote) (hfresh : Fresh w list quote c)
    (hasc : Ascending codeKey list') (hmem : ∀ d, d ∈ list' ↔ d = c ∨ d ∈ list) (i : ℕ) :
    list'[i]?.bind (lastBook w) = list[i]?.bind (lastBook w) := by
  have hnew : lastBook w c = none := h.lastBook_none c hfresh.new
  have hlen : list.length ≤ list'.length := length_le_of_subset h.ascending.nodup hmem
  rcases hx : list'[i]? with _ | x
  · have hi := getElem?_eq_none_iff.mp hx
    rw [getElem?_eq_none (hlen.trans hi)]
  · rcases getElem?_insert codeKey_injective h.ascending hfresh.new hasc hmem hx with
      hsame | ⟨hwho, habove⟩
    · rw [hsame]
    · have hxnone : lastBook w x = none := by
        rcases hwho with rfl | ⟨hxmem, hcx⟩
        · exact hnew
        · exact hfresh.noBook x hxmem hcx
      rw [Option.bind_some, hxnone]
      rcases hy : list[i]? with _ | y
      · rfl
      · exact (hfresh.noBook y (mem_of_getElem? hy) (habove y hy).1).symm

lemma Good.lastQuote_place (h : Good fl w list quote) (hfresh : Fresh w list quote c)
    (hasc : Ascending codeKey list') (hmem : ∀ d, d ∈ list' ↔ d = c ∨ d ∈ list) {i : ℕ} {x : Code}
    (hx : list'[i]? = some x) (hquote : quote x = none) : list[i]?.bind (lastQuote w) = none := by
  rcases hy : list[i]? with _ | y
  · rfl
  · have hymem := mem_of_getElem? hy
    rw [Option.bind_some, h.lastQuote_eq y hymem]
    rcases getElem?_insert codeKey_injective h.ascending hfresh.new hasc hmem hx with
      hsame | ⟨hwho, habove⟩
    · rw [hy] at hsame
      rwa [Option.some.inj hsame]
    · obtain ⟨hcy, hxy⟩ := habove y hy
      rcases hq : quote y with _ | q
      · rfl
      · have hsome := hfresh.quoted y hymem hcy (by rw [hq]; rfl) x hwho hxy
        rw [hquote] at hsome
        cases hsome

lemma Good.relayout {quotes : GoMap Code (Quote F)} (h : Good fl w list quotes.lookup)
    (hfresh : Fresh w list quotes.lookup c) (map : GoMap Code Bytes)
    (hmap : ∀ d, d ∈ map.keys ↔ d = c ∨ d ∈ list) (hmax : map.keys.length ≤ maxItem)
    (order : Order F) :
    ∃ w₁, w.layout map = some w₁ ∧ Good fl (updateAll fl w₁ (order.list quotes.entries))
      (ranked codeKey map.keys) quotes.lookup := by
  obtain ⟨w₁, hlayout⟩ := exists_layout w hmax
  obtain ⟨hslot, hupdates, hbooks⟩ := slot_layout hlayout
  have hasc : Ascending codeKey (ranked codeKey map.keys) :=
    ascending_ranked codeKey_injective map.keys_nodup
  have hmem : ∀ d, d ∈ ranked codeKey map.keys ↔ d = c ∨ d ∈ list := fun d => by
    rw [mem_ranked, hmap]
  have hout : ∀ d, d ∉ ranked codeKey map.keys → d ∉ list := fun d hd hin =>
    hd ((hmem d).mpr (.inr hin))
  have hentries : ∀ e ∈ order.list quotes.entries, e.2.code = e.1 := fun e he =>
    h.quote_code e.1 e.2 (AList.mem_lookup_iff.mpr ((order.perm _).mem_iff.mp he))
  -- after `Layout` a slot shows what it showed, whoever it belongs to now
  have hlaid : Holds fl w₁ (ranked codeKey map.keys)
      (fun x => ((ranked codeKey map.keys).idxOf? x).bind fun i => list[i]?.bind (lastQuote w))
      (lastBook w) := by
    refine ⟨hslot, hslot ▸ listed_layout hlayout, ?_, ?_⟩
    · refine (shows_layout rfl rfl offShrtCd_le_offFsise hlayout h.holds.quotes).relabel fun i => ?_
      rcases hx : (ranked codeKey map.keys)[i]? with _ | x
      · have hlen : list.length ≤ (ranked codeKey map.keys).length :=
          length_le_of_subset h.ascending.nodup hmem
        rw [getElem?_eq_none (hlen.trans (getElem?_eq_none_iff.mp hx))]
        rfl
      · rw [Option.bind_some, idxOf?_of_getElem? hasc.nodup hx, Option.bind_some]
    · exact (shows_layout rfl rfl offShrtCd_le_offFhoga hlayout h.holds.books).relabel
        (h.lastBook_place hfresh hasc hmem)
  obtain ⟨hafter, hwritten, hkept⟩ := holds_updateAll hasc.nodup _ hlaid hentries
  have hbook := lastBook_congr (hkept.trans hbooks)
  have hlast : ∀ d, lastQuote (updateAll fl w₁ (order.list quotes.entries)) d =
      (if d ∈ ranked codeKey map.keys then quotes.lookup d else none).or (lastQuote w d) :=
    fun d => by
      rw [lastQuote, hwritten, hupdates, latest_append, latest_range order quotes h.quote_code,
        lastQuote]
  -- a code without a quote has never been written
  have hnone : ∀ d, quotes.lookup d = none → lastQuote w d = none := fun d hd => by
    by_cases hin : d ∈ list
    · rw [h.lastQuote_eq d hin, hd]
    · exact h.lastQuote_none d hin
  have hnew : ∀ d ∈ ranked codeKey map.keys,
      lastQuote (updateAll fl w₁ (order.list quotes.entries)) d = quotes.lookup d := by
    intro d hd
    rw [hlast, if_pos hd]
    rcases hq : quotes.lookup d with _ | q
    · rw [Option.none_or, hnone d hq]
    · rw [Option.some_or]
  refine ⟨w₁, hlayout, ⟨hafter.slot_eq, hafter.listed, ?_, hbook ▸ hafter.books⟩, hasc,
    h.quote_code, hbook ▸ h.full, hnew, fun d hd => ?_, fun d hd => ?_⟩
  · -- the loop replaces what a slot showed, or there was nothing
    refine shows_of_eq_on hafter.quotes fun x hx => ?_
    rw [hnew x hx, latest_range order quotes h.quote_code, if_pos hx]
    rcases hq : quotes.lookup x with _ | q
    · obtain ⟨i, hi⟩ := getElem?_of_mem hx
      rw [Option.none_or, idxOf?_of_getElem? hasc.nodup hi, Option.bind_some,
        h.lastQuote_place hfresh hasc hmem hi hq]
    · rw [Option.some_or]
  · rw [hlast, if_neg hd, Option.none_or, h.lastQuote_none d (hout d hd)]
  · rw [hbook, h.lastBook_none d (hout d hd)]

variable (fl) in
structure Inv (h : Hub F) : Prop where
  good : Good fl h.w (codes h) h.quotes.lookup
  laid : h.laidCount = h.masters.keys.length
  short : ∀ c ∈ h.masters.keys, c.length ≤ stdCdLen
  apart : ∀ c ∈ h.masters.keys, ∀ d ∈ h.masters.keys,
    putFixed stdCdLen c = putFixed stdCdLen d → c = d

variable {h : Hub F} {order : Order F}

lemma inv_newHub : Inv fl (newHub F) := by
  refine ⟨⟨⟨rfl, ⟨rfl, nofun⟩, fun i a _ => rfl, fun i a _ => rfl⟩, List.Pairwise.nil, nofun, nofun,
    fun _ _ => rfl, fun _ _ => rfl, fun _ _ => rfl⟩, rfl, nofun, nofun⟩

lemma lookup_insert (quotes : GoMap Code (Quote F)) (c : Code) (q : Quote F) :
    (quotes.insert c q).lookup = update quotes.lookup c (some q) := by
  funext d
  by_cases hd : d = c
  · rw [hd, AList.lookup_insert, update_self]
  · rw [AList.lookup_insert_ne hd, update_of_ne hd]

lemma keys_shorts (masters : GoMap Code (MRec F)) : (shorts masters).keys = masters.keys := by
  simp only [shorts, AList.keys, keys, map_map]
  rfl

lemma mem_codes {d : Code} : d ∈ codes h ↔ d ∈ h.masters.keys := mem_ranked

lemma syncFut_of_none (hlaid : h.laidCount = h.masters.keys.length)
    (hq : h.quotes.lookup c = none) : syncFut fl order h c = h := by
  rw [syncFut, if_neg (not_not.mpr hlaid.symm), hq]

lemma syncFut_of_some (hlaid : h.laidCount = h.masters.keys.length)
    (hq : h.quotes.lookup c = some q) : syncFut fl order h c =
      if h.w.has c then { h with w := (h.w.update fl q).getD h.w } else h := by
  rw [syncFut, if_neg (not_not.mpr hlaid.symm), hq]

lemma masters_syncFut (h : Hub F) (c : Code) : (syncFut fl order h c).masters = h.masters := by
  fun_cases syncFut fl order h c <;> rfl

/-- The hub may change as long as the codes and their slots do not. -/
lemma Inv.congr (hinv : Inv fl h) {h' : Hub F}
    (hcodes : ∀ d, d ∈ h'.masters.keys ↔ d ∈ h.masters.keys)
    (hlaid : h'.laidCount = h'.masters.keys.length)
    (hgood : Good fl h'.w (codes h) h'.quotes.lookup) : Inv fl h' := by
  have hlist : codes h' = codes h := by
    refine eq_of_ascending (ascending_ranked codeKey_injective h'.masters.keys_nodup)
      hinv.good.ascending fun d => ?_
    rw [mem_codes, mem_codes, hcodes]
  exact ⟨hlist ▸ hgood, hlaid, fun c hc => hinv.short c ((hcodes c).mp hc), fun c hc d hd =>
    hinv.apart c ((hcodes c).mp hc) d ((hcodes d).mp hd)⟩

lemma inv_quote (hinv : Inv fl h) {h' : Hub F} (hw : h'.w = h.w)
    (hcodes : ∀ d, d ∈ h'.masters.keys ↔ d ∈ h.masters.keys)
    (hlaid : h'.laidCount = h'.masters.keys.length)
    (hquotes : h'.quotes.lookup = Function.update h.quotes.lookup q.code (some q)) :
    Inv fl (syncFut fl order h' q.code) := by
  have hlookup : h'.quotes.lookup q.code = some q :=
    (congrFun hquotes q.code).trans (Function.update_self _ _ _)
  rw [syncFut_of_some hlaid hlookup]
  by_cases hc : q.code ∈ codes h
  · obtain ⟨w, hup, hgood⟩ := hinv.good.update hc
    have hhas : h'.w.has q.code = true := by
      rw [hw]
      exact has_iff.mpr (hinv.good.holds.slot_eq ▸ hc)
    rw [if_pos hhas, hw, hup, Option.getD_some]
    exact hinv.congr hcodes hlaid (hquotes ▸ hgood)
  · have hhas : ¬ h'.w.has q.code = true := by
      rw [hw]
      exact fun hhas => hc (hinv.good.holds.slot_eq ▸ has_iff.mp hhas)
    have hgood := hinv.good.keep hc
    rw [if_neg hhas]
    exact hinv.congr hcodes hlaid (hquotes ▸ hw ▸ hgood)

lemma InTimeFor.fresh (htime : InTimeFor h c) (hc : c ∉ h.masters.keys) :
    Fresh h.w (codes h) h.quotes.lookup c := by
  refine ⟨fun hin => hc (mem_codes.mp hin), fun d hd hcd => ?_, fun d hd hcd hsome e he hed => ?_⟩
  · exact Option.isNone_iff_eq_none.mp ((htime hc d (mem_codes.mp hd)).2 hcd).1
  · refine ((htime hc d (mem_codes.mp hd)).2 hcd).2 hsome e ?_ ?_ hed
    · rcases he with rfl | ⟨he, -⟩
      · exact mem_cons_self
      · exact mem_cons_of_mem _ (mem_codes.mp he)
    · rcases he with rfl | ⟨-, hlt⟩
      · exact le_rfl
      · exact hlt.le

lemma inv_master_known (hinv : Inv fl h) (hc : c ∈ h.masters.keys) (m : MRec F) :
    Inv fl (syncFut fl order { h with masters := h.masters.insert c m } c) := by
  have hsame : ∀ d, d ∈ (h.masters.insert c m).keys ↔ d ∈ h.masters.keys := fun d =>
    (AList.mem_insert h.masters).trans ⟨fun hd => hd.elim (fun heq => heq ▸ hc) id, .inr⟩
  have hlaid : h.laidCount = (h.masters.insert c m).keys.length := by
    rw [hinv.laid]
    exact ((perm_ext_iff_of_nodup (AList.keys_nodup _) (AList.keys_nodup _)).mpr
      hsame).length_eq.symm
  rcases hq : h.quotes.lookup c with _ | q
  · rw [syncFut_of_none (h := { h with masters := h.masters.insert c m }) hlaid hq]
    exact hinv.congr hsame hlaid hinv.good
  · have hcode := hinv.good.quote_code c q hq
    subst hcode
    refine inv_quote hinv rfl hsame hlaid ?_
    rw [← hq, update_eq_self]

lemma inv_master (hinv : Inv fl h) (hlen : c.length ≤ stdCdLen) (htime : InTimeFor h c)
    {m : MRec F} (hmax : (h.masters.insert c m).keys.length ≤ maxItem) :
    Inv fl (syncFut fl order { h with masters := h.masters.insert c m } c) := by
  by_cases hc : c ∈ h.masters.keys
  · exact inv_master_known hinv hc m
  have hmem : ∀ d, d ∈ (h.masters.insert c m).keys ↔ d = c ∨ d ∈ h.masters.keys := fun d =>
    AList.mem_insert h.masters
  have hnew : (h.masters.insert c m).keys.length = h.masters.keys.length + 1 := by
    rw [AList.insert_of_notMem hc]
    rfl
  obtain ⟨w, hlayout, hgood⟩ := hinv.good.relayout (htime.fresh hc) (shorts (h.masters.insert c m))
    (fun d => by rw [keys_shorts, hmem, mem_codes]) (by rwa [keys_shorts]) order
  have hsync : syncFut fl order { h with masters := h.masters.insert c m } c =
      { h with
        masters := h.masters.insert c m
        laidCount := (h.masters.insert c m).keys.length
        w := updateAll fl w (order.list h.quotes.entries) } := by
    have hne : (h.masters.insert c m).keys.length ≠ h.laidCount := by
      rw [hnew, hinv.laid]
      omega
    rw [syncFut]
    dsimp only
    rw [if_pos hne, hlayout]
  rw [hsync]
  rw [keys_shorts] at hgood
  refine ⟨hgood, rfl, fun d hd => ?_, fun d hd e he heq => ?_⟩
  · rcases (hmem d).mp hd with rfl | hd
    · exact hlen
    · exact hinv.short d hd
  · rcases (hmem d).mp hd with hdc | hdold <;> rcases (hmem e).mp he with hec | heold
    · rw [hdc, hec]
    · rw [hdc] at heq
      exact absurd heq (htime hc e heold).1
    · rw [hec] at heq
      exact absurd heq.symm (htime hc d hdold).1
    · exact hinv.apart d hdold e heold heq

variable (fl) in
lemma code_buildFutQuote (h : Hub F) (ft : FutTrade F) :
    (buildFutQuote fl h ft).code = ft.code := by
  unfold buildFutQuote
  rcases h.masters.lookup ft.code with _ | m <;> rcases h.settle.lookup ft.code with _ | s <;> rfl

lemma full_futBook {b : Bytes} {fb : FutBook F} (hb : decodeB606F fl b = .ok fb) :
    (futBook fb).Full := by
  obtain ⟨hask, hbid⟩ := length_levels_decodeB606F fl hb
  refine ⟨?_, ?_⟩
  · rw [futBook, length_map, hask]
    rfl
  · rw [futBook, length_map, hbid]
    rfl

variable (fl h order) in
/-- What a message does to the hub. -/
inductive Does (b : Bytes) : Hub F → Prop
  | same : Does b h
  | master {m : FutMaster F} (htr : b.take 5 = trCode "A006F") (hm : decodeA006F fl b = .ok m) :
      Does b (syncFut fl order { h with
        masters := h.masters.insert m.code ⟨m.shortCode, m.basePrc, m.prevClose⟩ } m.code)
  | quote {c : Code} {q : Quote F} {settle : GoMap Code (FutSettle F)}
      (hq : (∀ p, h.quotes.lookup c = some p → p.code = c) → q.code = c) :
      Does b (syncFut fl order { h with settle, quotes := h.quotes.insert c q } c)
  | settle (settle : GoMap Code (FutSettle F)) : Does b { h with settle }
  | book {fb : FutBook F} (hfb : decodeB606F fl b = .ok fb) (hhas : h.w.has fb.code = true) :
      Does b { h with w := (h.w.updateBook fl (futBook fb)).getD h.w }

lemma does_ingest (b : Bytes) : Does fl h order b (ingest fl order h b).1 := by
  unfold ingest
  split_ifs with hshort hmaster htrade hsettle hbook
  · exact .same
  · rcases hm : decodeA006F fl b with e | m
    · exact .same
    · exact .master hmaster hm
  · rcases decodeA306F fl b with e | ft
    · exact .same
    · exact .quote fun _ => code_buildFutQuote fl h ft
  · rcases decodeH306F fl b with e | s
    · exact .same
    · dsimp only
      rcases hq : h.quotes.lookup s.code with _ | q
      · exact .settle _
      · exact .quote fun hcode => hcode q hq
  · rcases hfb : decodeB606F fl b with e | fb
    · exact .same
    · dsimp only
      split_ifs with hhas
      · exact .book hfb hhas
      · exact .same
  · exact .same

variable {b : Bytes} {h' : Hub F}

lemma Does.inv (hdoes : Does fl h order b h') (hinv : Inv fl h) (htime : InTime fl h b)
    (hmax : h'.masters.keys.length ≤ maxItem) : Inv fl h' := by
  cases hdoes with
  | same => exact hinv
  | master htr hm =>
    have htime := htime htr
    rw [hm] at htime
    rw [masters_syncFut] at hmax
    exact inv_master hinv (length_code_decodeA006F fl hm) htime hmax
  | quote hq =>
    obtain rfl := hq (hinv.good.quote_code _)
    exact inv_quote hinv rfl (fun _ => Iff.rfl) hinv.laid (lookup_insert _ _ _)
  | settle _ => exact ⟨hinv.good, hinv.laid, hinv.short, hinv.apart⟩
  | book hfb hhas =>
    have hc : (futBook _).code ∈ codes h := hinv.good.holds.slot_eq ▸ has_iff.mp hhas
    obtain ⟨w, hup, hgood⟩ := hinv.good.updateBook hc (full_futBook hfb)
    rw [hup]
    exact ⟨hgood, hinv.laid, hinv.short, hinv.apart⟩

lemma Does.length_masters (hdoes : Does fl h order b h') :
    h.masters.keys.length ≤ h'.masters.keys.length := by
  cases hdoes with
  | same | settle _ | book => exact le_rfl
  | master =>
    rw [masters_syncFut]
    exact length_le_of_subset (AList.keys_nodup _) fun d => AList.mem_insert h.masters
  | quote => rw [masters_syncFut]

lemma length_masters_run : ∀ (msgs : List (Order F × Bytes)) (h : Hub F),
    h.masters.keys.length ≤ (run fl h msgs).masters.keys.length
  | [], _ => le_rfl
  | m :: msgs, _ => (does_ingest m.2).length_masters.trans (length_masters_run msgs _)

lemma inv_run : ∀ (msgs : List (Order F × Bytes)) {h : Hub F}, Inv fl h → AllInTime fl h msgs →
    (run fl h msgs).masters.keys.length ≤ maxItem → Inv fl (run fl h msgs)
  | [], _, hinv, _, _ => hinv
  | m :: msgs, _, hinv, htime, hmax =>
    inv_run msgs ((does_ingest m.2).inv hinv htime.1 ((length_masters_run msgs _).trans hmax))
      htime.2 hmax

lemma not_lt_zeros : ∀ l : List ℕ, ¬ l < replicate l.length 0
  | [] => not_lt_nil _
  | a :: l => by
    rw [length_cons, replicate_succ, cons_lt_cons_iff]
    exact not_or.mpr ⟨Nat.not_lt_zero a, fun h => not_lt_zeros l h.2⟩

lemma not_pad_lt : ∀ {n : ℕ} {l l' : List ℕ}, l < l' → l.length ≤ n → l'.length ≤ n →
    ¬ l' ++ replicate (n - l'.length) 0 < l ++ replicate (n - l.length) 0
  | n, [], l', _, _, hl' => by
    have hzeros := not_lt_zeros (l' ++ replicate (n - l'.length) 0)
    have hlen : (l' ++ replicate (n - l'.length) 0).length = n := by
      rw [length_append, length_replicate]
      omega
    rwa [hlen] at hzeros
  | n, a :: l, [], h, _, _ => absurd h (not_lt_nil _)
  | 0, a :: l, b :: l', _, hl, _ => absurd hl (Nat.not_succ_le_zero _)
  | n + 1, a :: l, b :: l', h, hl, hl' => by
    simp only [length_cons, Nat.add_sub_add_right, cons_append]
    rw [cons_lt_cons_iff]
    rcases cons_lt_cons_iff.mp h with hab | ⟨rfl, hlt⟩
    · exact not_or.mpr ⟨hab.asymm, fun heq => hab.ne' heq.1⟩
    · exact not_or.mpr ⟨lt_irrefl a, fun heq =>
        not_pad_lt hlt (Nat.le_of_succ_le_succ hl) (Nat.le_of_succ_le_succ hl') heq.2⟩

lemma codeKey_putFixed {n : ℕ} (h : c.length ≤ n) :
    codeKey (putFixed n c) = codeKey c ++ replicate (n - (codeKey c).length) 0 := by
  show (c.take n ++ replicate (n - c.length) 0).map UInt8.toNat = _
  rw [take_of_length_le h, map_append, map_replicate, codeKey, length_map]
  rfl

lemma putFixed_lt {n : ℕ} {c d : Code} (hc : c.length ≤ n) (hd : d.length ≤ n)
    (hlt : codeKey c < codeKey d) (hne : putFixed n c ≠ putFixed n d) :
    codeKey (putFixed n c) < codeKey (putFixed n d) := by
  have hlen : ∀ {c : Code}, c.length ≤ n → (codeKey c).length ≤ n := fun h => by
    rwa [codeKey, length_map]
  refine lt_of_le_of_ne (not_lt.mp ?_) fun heq => hne (codeKey_injective heq)
  rw [codeKey_putFixed hc, codeKey_putFixed hd]
  exact not_pad_lt hlt (hlen hc) (hlen hd)

lemma showsOwn_of_shows {ρ : Type*} {A : Area ρ} {m : Mem} {label : Code → Option ρ}
    (hshows : A.Shows m list label) {i : ℕ} (hc : list[i]? = some c) :
    ShowsOwn A m i (label c) := by
  have hslot := hshows i
  rw [hc, Option.bind_some] at hslot
  rcases hr : label c with _ | r <;> rw [hr] at hslot
  · exact .inl hslot
  · exact .inr ⟨r, rfl, hslot⟩

lemma Inv.faithful (hinv : Inv fl h) : Faithful fl h := by
  have hlen : (codes h).length = h.masters.keys.length := length_ranked _
  have huse : useN h.w.mem = h.masters.keys.length := hinv.good.holds.listed.useN_eq.trans hlen
  refine ⟨huse, hinv.good.holds.listed.code_eq, fun i j hij hj => ?_,
    fun i c hc => showsOwn_of_shows hinv.good.holds.quotes hc,
    fun i c hc => showsOwn_of_shows hinv.good.holds.books hc⟩
  rw [huse, ← hlen] at hj
  have hi : i < (codes h).length := hij.trans hj
  have hlt := pairwise_iff_getElem.mp hinv.good.ascending i j hi hj hij
  have hmemi := mem_codes.mp (getElem_mem hi)
  have hmemj := mem_codes.mp (getElem_mem hj)
  rw [hinv.good.holds.listed.code_eq i _ (getElem?_eq_getElem hi),
    hinv.good.holds.listed.code_eq j _ (getElem?_eq_getElem hj)]
  refine putFixed_lt (hinv.short _ hmemi) (hinv.short _ hmemj) hlt fun heq => ?_
  rw [hinv.apart _ hmemi _ hmemj heq] at hlt
  exact lt_irrefl _ hlt

/-- **No instrument shows another's data if masters come in time**, over zeroed memory, for every
sequence of messages with at most 400 master codes. -/
theorem faithful_of_inTime (fl : Floats F) (msgs : List (Order F × Bytes))
    (hmax : (run fl (newHub F) msgs).masters.keys.length ≤ maxItem)
    (htime : AllInTime fl (newHub F) msgs) : Faithful fl (run fl (newHub F) msgs) :=
  (inv_run msgs inv_newHub htime hmax).faithful

def wholeUnits : Floats ℤ where
  zero := 0
  hundred := 100
  le a b := a ≤ b
  lt a b := a < b
  eq a b := a = b
  sub a b := a - b
  mul a b := a * b
  div a b := a / b
  parseFloat := parseInt
  float64bits a := a.toNat
  float32bits a := a.toNat

def fill (tr : String) (size : ℕ) (fields : List (ℕ × Bytes)) : Order ℤ × Bytes :=
  (.same (Sigma fun _ : Code => Quote ℤ),
    fields.foldl (fun b f => write b f.1 f.2) (trCode tr ++ List.replicate (size - 5) 0x20))

def codeA : Code := trCode "101V6000"
def codeB : Code := trCode "105V3000"

def masterOf (c : Code) : Order ℤ × Bytes := fill "A006F" 1318 [(27, c)]
def tradeOf (c : Code) : Order ℤ × Bytes :=
  fill "A306F" 173 [(17, c), (47, trCode "265")]
def bookOf (c : Code) : Order ℤ × Bytes := fill "B606F" 324 [(17, c), (277, trCode "30")]

def mastersFirst : List (Order ℤ × Bytes) :=
  [masterOf codeB, masterOf codeA, tradeOf codeB, bookOf codeB]

theorem faithful_of_inTime_mastersFirst :
    (run wholeUnits (newHub ℤ) mastersFirst).masters.keys.length = 2 ∧
      Faithful wholeUnits (run wholeUnits (newHub ℤ) mastersFirst) := by
  have hlen : (run wholeUnits (newHub ℤ) mastersFirst).masters.keys.length = 2 := by decide +kernel
  have htime : AllInTime wholeUnits (newHub ℤ) mastersFirst := by decide +kernel
  refine ⟨hlen, faithful_of_inTime wholeUnits mastersFirst ?_ htime⟩
  rw [hlen]
  decide

def masterLate : List (Order ℤ × Bytes) :=
  [masterOf codeB, tradeOf codeB, bookOf codeB, masterOf codeA]

theorem late_master_shows_other :
    codes (run wholeUnits (newHub ℤ) masterLate) = [codeA, codeB] ∧
      (lastQuote (run wholeUnits (newHub ℤ) masterLate).w codeA).isNone = true ∧
      (run wholeUnits (newHub ℤ) masterLate).w.mem (entryOff 0 + offFsise + fsHalt) = 0x20 ∧
      (lastBook (run wholeUnits (newHub ℤ) masterLate).w codeA).isNone = true ∧
      (run wholeUnits (newHub ℤ) masterLate).w.mem (entryOff 0 + offFhoga + fhStVol) = 30 ∧
      ¬ Faithful wholeUnits (run wholeUnits (newHub ℤ) masterLate) := by
  have hcodes : codes (run wholeUnits (newHub ℤ) masterLate) = [codeA, codeB] := by decide +kernel
  have hquote : (lastQuote (run wholeUnits (newHub ℤ) masterLate).w codeA).isNone = true := by
    decide +kernel
  have hhalt : (run wholeUnits (newHub ℤ) masterLate).w.mem (entryOff 0 + offFsise + fsHalt) =
      0x20 := by decide +kernel
  refine ⟨hcodes, hquote, hhalt, by decide +kernel, by decide +kernel, fun h => ?_⟩
  rcases h.quotes 0 codeA (by rw [hcodes]; rfl) with hzero | ⟨q, hq, -⟩
  · have hbyte := hzero fsHalt (by decide)
    rw [addr_quoteArea, hhalt] at hbyte
    exact absurd hbyte (by decide)
  · rw [hq] at hquote
    cases hquote

end Wtg.Pricekrx.Ingest
