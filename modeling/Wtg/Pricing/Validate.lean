import Mathlib.Tactic.Linarith
import Wtg.Pricing.Doc
import Wtg.Pricing.MapOrder

/-! # The validator of pricing documents

`Validate` of `pkg/pricing/validate.go`: the checks that an operator's document passes before it is
stored. `quote_width_iff` says which accepted documents never narrow a quote. -/

namespace Wtg.Pricing.Validate

open Lib Lib.FirstMatch Pricing.BusinessDays Pricing.Table Pricing.Doc List
open Pricing.Engine Pricing.MapOrder
open QuoteId.Registry (Profile)

variable {R : Type*}

def check (violated : Prop) [Decidable violated] (text : String) : List String :=
  if violated then [text] else []

def place (layer : String) (i : ℕ) : String := layer ++ "[" ++ toString i ++ "]"

def checkSwap (i : ℕ) (e : SwapEntryDoc R) : List String :=
  check (e.pair = "") (place "swap_point" i ++ ": pair 비어있음") ++
    check (e.tenor = "") (place "swap_point" i ++ " (pair=" ++ e.pair ++ "): tenor 비어있음")

/-! ## Checks -/

section

variable [Zero R] [LT R] [DecidableLT R] (fmtG : R → String)

def checkAmounts (at_ : String) (bid ask : R) : List String :=
  check (bid < 0) (at_ ++ ": bid_amount " ++ fmtG bid ++ " < 0") ++
    check (ask < 0) (at_ ++ ": ask_amount " ++ fmtG ask ++ " < 0")

def checkHQ (i : ℕ) (e : HQEntryDoc R) : List String :=
  check (e.pair = "") (place "hq_margin" i ++ ": pair 비어있음") ++
    checkAmounts fmtG (place "hq_margin" i ++ " (pair=" ++ e.pair ++ ",tier=" ++ e.tier ++ ")")
      e.bidAmount e.askAmount

def checkSite (i : ℕ) (e : SiteEntryDoc R) : List String :=
  check (e.pair = "") (place "site_margin" i ++ ": pair 비어있음") ++
    checkAmounts fmtG (place "site_margin" i ++ " (pair=" ++ e.pair ++ ",channel=" ++ e.channel ++
      ",site=" ++ e.site ++ ")") e.bidAmount e.askAmount ++
    check (e.channel = "" ∧ e.site = "") (place "site_margin" i ++ " (pair=" ++ e.pair ++
      "): channel/site 동시 와일드카드 금지 (광범위 fallback)")

def validate (doc : PricingTableDoc R) : Option (List String) :=
  let v := (doc.swapPoint.mapIdx checkSwap).flatten ++
    (doc.hqMargin.mapIdx (checkHQ fmtG)).flatten ++ (doc.siteMargin.mapIdx (checkSite fmtG)).flatten
  if v.length = 0 then none else some v

end

def errorText : List String → String
  | [] => ""
  | [violation] => "pricing: validation 실패 — " ++ violation
  | vs => "pricing: validation 실패 (" ++ toString vs.length ++ "건) — " ++ "; ".intercalate vs

@[simp] lemma check_eq_nil {violated : Prop} [Decidable violated] {text : String} :
    check violated text = [] ↔ ¬ violated := by
  simp [check]

lemma flatten_mapIdx_eq_nil {α β : Type*} {f : ℕ → α → List β} {ok : α → Prop} {l : List α}
    (h : ∀ i a, f i a = [] ↔ ok a) : (l.mapIdx f).flatten = [] ↔ ∀ a ∈ l, ok a := by
  rw [flatten_eq_nil_iff]
  constructor
  · intro hnil a ha
    obtain ⟨i, hi, rfl⟩ := getElem_of_mem ha
    exact (h i _).mp (hnil _ (mem_mapIdx.mpr ⟨i, hi, rfl⟩))
  · intro hok _ hmem
    obtain ⟨i, hi, rfl⟩ := mem_mapIdx.mp hmem
    exact (h i _).mpr (hok _ (getElem_mem hi))

structure Accepted [Zero R] [LT R] (doc : PricingTableDoc R) : Prop where
  swap : ∀ e ∈ doc.swapPoint, e.pair ≠ "" ∧ e.tenor ≠ ""
  hq : ∀ e ∈ doc.hqMargin, e.pair ≠ "" ∧ ¬ e.bidAmount < 0 ∧ ¬ e.askAmount < 0
  site : ∀ e ∈ doc.siteMargin, e.pair ≠ "" ∧ (¬ e.bidAmount < 0 ∧ ¬ e.askAmount < 0) ∧
    ¬ (e.channel = "" ∧ e.site = "")

lemma validate_eq_none [Zero R] [LT R] [DecidableLT R] {fmtG : R → String}
    {doc : PricingTableDoc R} : validate fmtG doc = none ↔ Accepted doc := by
  have hswap : (doc.swapPoint.mapIdx checkSwap).flatten = [] ↔
      ∀ e ∈ doc.swapPoint, e.pair ≠ "" ∧ e.tenor ≠ "" :=
    flatten_mapIdx_eq_nil fun i e => by simp [checkSwap]
  have hhq : (doc.hqMargin.mapIdx (checkHQ fmtG)).flatten = [] ↔
      ∀ e ∈ doc.hqMargin, e.pair ≠ "" ∧ ¬ e.bidAmount < 0 ∧ ¬ e.askAmount < 0 :=
    flatten_mapIdx_eq_nil fun i e => by simp [checkHQ, checkAmounts]
  have hsite : (doc.siteMargin.mapIdx (checkSite fmtG)).flatten = [] ↔
      ∀ e ∈ doc.siteMargin, e.pair ≠ "" ∧ (¬ e.bidAmount < 0 ∧ ¬ e.askAmount < 0) ∧
        ¬ (e.channel = "" ∧ e.site = "") :=
    flatten_mapIdx_eq_nil fun i e => by simp [checkSite, checkAmounts, and_assoc]
  have hnil : validate fmtG doc = none ↔ (doc.swapPoint.mapIdx checkSwap).flatten = [] ∧
      (doc.hqMargin.mapIdx (checkHQ fmtG)).flatten = [] ∧
      (doc.siteMargin.mapIdx (checkSite fmtG)).flatten = [] := by
    simp only [validate, length_eq_zero_iff, append_eq_nil_iff, and_assoc]
    split_ifs with h
    · exact iff_of_true rfl h
    · exact iff_of_false (by simp) h
  rw [hnil, hswap, hhq, hsite]
  exact ⟨fun h => ⟨h.1, h.2.1, h.2.2⟩, fun h => ⟨h.swap, h.hq, h.site⟩⟩

/-! ## The entries that decide -/

section

variable {α κ τ ν : Type*}

/-- The entries of one layer of a document: the key of an entry is its tag with a window. -/
structure Layer (α κ τ ν : Type*) where
  key : α → κ
  tag : α → τ
  slot : τ → String → κ
  val : α → ν
  tag_eq : ∀ {e t w}, key e = slot t w → tag e = t

variable (L : Layer α κ τ ν) (ws : List String) (l : List α)

/-- The entry decides for its tag: it is the last one of its key, and its window is the first active
one that has an entry, or it has no window and no active one has an entry. -/
def Layer.Live (e : α) : Prop :=
  (∃ before after, l = before ++ e :: after ∧ ∀ e' ∈ after, L.key e' ≠ L.key e) ∧
    ((∃ vs w us, ws = vs ++ w :: us ∧ L.key e = L.slot (L.tag e) w ∧
        ∀ v ∈ vs, ∀ e' ∈ l, L.key e' ≠ L.slot (L.tag e) v) ∨
      L.key e = L.slot (L.tag e) "" ∧ ∀ w ∈ ws, ∀ e' ∈ l, L.key e' ≠ L.slot (L.tag e) w)

/-- The value for a tag in the map that is built from the entries. -/
def Layer.find [DecidableEq κ] (t : τ) : Option ν :=
  Level.find ⟨fun w => (Upsert.ofEntries L.key L.val l).lookup (L.slot t w),
    (Upsert.ofEntries L.key L.val l).lookup (L.slot t "")⟩ ws

variable {L ws l}

lemma Layer.Live.mem {e : α} (h : L.Live ws l e) : e ∈ l := by
  obtain ⟨⟨before, after, rfl, -⟩, -⟩ := h
  exact mem_append_right _ mem_cons_self

lemma Layer.find_eq_some [DecidableEq κ] {t : τ} {m : ν} :
    L.find ws l t = some m ↔ ∃ e, L.Live ws l e ∧ L.tag e = t ∧ L.val e = m := by
  rw [Layer.find, Level.find, Option.or_eq_some_iff, findSome?_eq_some_iff, findSome?_eq_none_iff]
  simp only [Upsert.lookup_eq_none_iff]
  constructor
  · rintro (⟨vs, w, us, hws, hlookup, hnone⟩ | ⟨hnone, hlookup⟩) <;>
      obtain ⟨before, e, after, hl, hkey, hval, hlast⟩ := Upsert.exists_last_of_lookup hlookup <;>
      obtain rfl := L.tag_eq hkey
    · exact ⟨e, ⟨⟨before, after, hl, hkey ▸ hlast⟩, .inl ⟨vs, w, us, hws, hkey, hnone⟩⟩, rfl, hval⟩
    · exact ⟨e, ⟨⟨before, after, hl, hkey ▸ hlast⟩, .inr ⟨hkey, hnone⟩⟩, rfl, hval⟩
  · rintro ⟨e, ⟨⟨before, after, hl, hlast⟩, hlive⟩, rfl, rfl⟩
    have hlookup : (Upsert.ofEntries L.key L.val l).lookup (L.key e) = some (L.val e) := by
      rw [hl, Upsert.lookup_last L.key hlast]
    rcases hlive with ⟨vs, w, us, hws, hkey, hnone⟩ | ⟨hkey, hnone⟩
    · exact .inl ⟨vs, w, us, hws, hkey ▸ hlookup, hnone⟩
    · exact .inr ⟨hnone, hkey ▸ hlookup⟩

end

/-! ## Margins by entries -/

section

/-- Head office: margins by pair and tier. -/
def hqLayer (u : Runes) : Layer (HQEntryDoc R) HQKey (String × String) (Margin R) where
  key := HQEntryDoc.key u
  tag e := (e.pair, e.tier)
  slot t w := ⟨t.1, t.2, w⟩
  val := HQEntryDoc.margin
  tag_eq h := by
    obtain ⟨hpair, htier, -⟩ := HQKey.mk.inj h
    exact Prod.ext hpair htier

/-- Sites: margins by pair, channel and site. -/
def siteLayer (u : Runes) :
    Layer (SiteEntryDoc R) SiteKey (String × String × String) (Margin R) where
  key := SiteEntryDoc.key u
  tag e := (e.pair, e.channel, e.site)
  slot t w := ⟨t.1, t.2.1, t.2.2, w⟩
  val := SiteEntryDoc.margin
  tag_eq h := by
    obtain ⟨hpair, hchannel, hsite, -⟩ := SiteKey.mk.inj h
    exact Prod.ext hpair (Prod.ext hchannel hsite)

variable (u : Runes) (doc : PricingTableDoc R) (ws : List String)

abbrev HQLive : HQEntryDoc R → Prop := (hqLayer u).Live ws doc.hqMargin

abbrev SiteLive : SiteEntryDoc R → Prop := (siteLayer u).Live ws doc.siteMargin

abbrev findHQ (pair tier : String) : Option (Margin R) :=
  (hqLayer u).find ws doc.hqMargin (pair, tier)

abbrev findSite (pair channel site : String) : Option (Margin R) :=
  (siteLayer u).find ws doc.siteMargin (pair, channel, site)

/-- No entry of head office decides for the tiers of the pair without entries of their own. -/
def Bare (pair : String) : Prop := ∀ e, HQLive u doc ws e → e.pair = pair → e.tier ≠ ""

variable {u doc ws} {pair tier channel site : String}

lemma bare_iff : Bare u doc ws pair ↔ findHQ u doc ws pair "" = none := by
  rw [Option.eq_none_iff_forall_ne_some]
  constructor
  · intro h m hm
    obtain ⟨e, he, htag, -⟩ := Layer.find_eq_some.mp hm
    exact h e he (Prod.mk.inj htag).1 (Prod.mk.inj htag).2
  · intro h e he hpair htier
    exact h e.margin (Layer.find_eq_some.mpr ⟨e, he, Prod.ext hpair htier, rfl⟩)

variable [Zero R]

lemma lookupHQ_eq : (buildPricingTable u doc).lookupHQ pair tier ws =
    ((findHQ u doc ws pair tier).or (findHQ u doc ws pair "")).getD 0 := by
  have hlevels : (buildPricingTable u doc).lookupHQ pair tier ws =
      ([tier, ""].findSome? fun tr => findHQ u doc ws pair tr).getD 0 := rfl
  rw [hlevels, findSome?_cons, findSome?_singleton]
  cases findHQ u doc ws pair tier <;> rfl

lemma lookupSite_eq : (buildPricingTable u doc).lookupSite pair channel site ws =
    ((findSite u doc ws pair channel site).or ((findSite u doc ws pair "" site).or
      (findSite u doc ws pair channel ""))).getD 0 := by
  have hlevels : (buildPricingTable u doc).lookupSite pair channel site ws =
      ([(channel, site), ("", site), (channel, "")].findSome? fun cs =>
        findSite u doc ws pair cs.1 cs.2).getD 0 := rfl
  rw [hlevels, findSome?_cons, findSome?_cons, findSome?_singleton]
  cases findSite u doc ws pair channel site <;> cases findSite u doc ws pair "" site <;> rfl

lemma lookupHQ_of_live {e : HQEntryDoc R} (he : HQLive u doc ws e) :
    (buildPricingTable u doc).lookupHQ e.pair e.tier ws = e.margin := by
  have hfind : findHQ u doc ws e.pair e.tier = some e.margin :=
    Layer.find_eq_some.mpr ⟨e, he, rfl, rfl⟩
  rw [lookupHQ_eq, hfind]
  rfl

lemma lookupSite_of_live {e : SiteEntryDoc R} (he : SiteLive u doc ws e) :
    (buildPricingTable u doc).lookupSite e.pair e.channel e.site ws = e.margin := by
  have hfind : findSite u doc ws e.pair e.channel e.site = some e.margin :=
    Layer.find_eq_some.mpr ⟨e, he, rfl, rfl⟩
  rw [lookupSite_eq, hfind]
  rfl

lemma lookupHQ_of_bare (h : Bare u doc ws pair) :
    (buildPricingTable u doc).lookupHQ pair "" ws = 0 := by
  rw [lookupHQ_eq, bare_iff.mp h]
  rfl

lemma lookupSite_empty [LT R] (hdoc : Accepted doc) :
    (buildPricingTable u doc).lookupSite pair "" "" ws = 0 := by
  have hnone : findSite u doc ws pair "" "" = none := by
    refine Option.eq_none_iff_forall_ne_some.mpr fun m hm => ?_
    obtain ⟨e, he, htag, -⟩ := Layer.find_eq_some.mp hm
    exact (hdoc.site e he.mem).2.2 (Prod.mk.inj (Prod.mk.inj htag).2)
  rw [lookupSite_eq, hnone]
  rfl

lemma lookup_swapPoint_empty [LT R] (u : Runes) (pair : String) (hdoc : Accepted doc) :
    (buildPricingTable u doc).swapPoint.lookup ⟨pair, ""⟩ = none := by
  refine Upsert.lookup_eq_none_iff.mpr fun e he hkey => ?_
  exact (hdoc.swap e he).2 (SwapKey.mk.inj hkey).2

variable (u doc ws)

lemma lookupHQ_cases (pair tier : String) :
    (∃ e, HQLive u doc ws e ∧ e.pair = pair ∧
      (buildPricingTable u doc).lookupHQ pair tier ws = e.margin) ∨
      Bare u doc ws pair ∧ (buildPricingTable u doc).lookupHQ pair tier ws = 0 := by
  rw [lookupHQ_eq, bare_iff]
  rcases htier : findHQ u doc ws pair tier with _ | m
  · rcases hall : findHQ u doc ws pair "" with _ | m
    · exact .inr ⟨rfl, rfl⟩
    · obtain ⟨e, he, htag, rfl⟩ := Layer.find_eq_some.mp hall
      exact .inl ⟨e, he, (Prod.mk.inj htag).1, rfl⟩
  · obtain ⟨e, he, htag, rfl⟩ := Layer.find_eq_some.mp htier
    exact .inl ⟨e, he, (Prod.mk.inj htag).1, rfl⟩

lemma lookupSite_cases (pair channel site : String) :
    (∃ e, SiteLive u doc ws e ∧ e.pair = pair ∧
      (buildPricingTable u doc).lookupSite pair channel site ws = e.margin) ∨
      (buildPricingTable u doc).lookupSite pair channel site ws = 0 := by
  rw [lookupSite_eq]
  rcases hfind : (findSite u doc ws pair channel site).or ((findSite u doc ws pair "" site).or
    (findSite u doc ws pair channel "")) with _ | m
  · exact .inr rfl
  · obtain ⟨c, s, hm⟩ : ∃ c s, findSite u doc ws pair c s = some m := by
      rcases Option.or_eq_some_iff.mp hfind with h | ⟨-, h⟩
      · exact ⟨_, _, h⟩
      · rcases Option.or_eq_some_iff.mp h with h | ⟨-, h⟩ <;> exact ⟨_, _, h⟩
    obtain ⟨e, he, htag, rfl⟩ := Layer.find_eq_some.mp hm
    exact .inl ⟨e, he, (Prod.mk.inj htag).1, rfl⟩

end

/-! ## The width of a quote -/

section

variable [Field R] [LinearOrder R]

def width (m : Margin R) : R := m.bidAmount + m.askAmount + m.spreadAmount

variable (u : Runes) (doc : PricingTableDoc R) (ws : List String)

/-- The entries that decide together for some profile do not narrow a quote: one of head office
alone, one of a site with it, and one of a site alone where head office has none for other tiers. -/
structure Widens : Prop where
  hq : ∀ e, HQLive u doc ws e → 0 ≤ width e.margin
  both : ∀ e f, HQLive u doc ws e → SiteLive u doc ws f → e.pair = f.pair →
    0 ≤ width e.margin + width f.margin
  site : ∀ f, SiteLive u doc ws f → Bare u doc ws f.pair → 0 ≤ width f.margin

variable {u doc ws} {fmtG : R → String}

lemma widens_iff (hdoc : Accepted doc) : Widens u doc ws ↔ ∀ pair tier channel site,
    0 ≤ width ((buildPricingTable u doc).lookupHQ pair tier ws) +
      width ((buildPricingTable u doc).lookupSite pair channel site ws) := by
  have hzero : width (0 : Margin R) = 0 := by
    have hsum : width (0 : Margin R) = 0 + 0 + 0 := rfl
    rw [hsum, add_zero, add_zero]
  constructor
  · intro h pair tier channel site
    rcases lookupHQ_cases u doc ws pair tier with ⟨e, he, hpair, hhq⟩ | ⟨hbare, hhq⟩ <;>
      rcases lookupSite_cases u doc ws pair channel site with ⟨f, hf, hpair', hsite⟩ | hsite <;>
      rw [hhq, hsite]
    · exact h.both e f he hf (hpair.trans hpair'.symm)
    · rw [hzero, add_zero]
      exact h.hq e he
    · rw [hzero, zero_add]
      exact h.site f hf (hpair' ▸ hbare)
    · rw [hzero, add_zero]
  · intro h
    refine ⟨fun e he => ?_, fun e f he hf hpair => ?_, fun f hf hbare => ?_⟩
    · have hwide := h e.pair e.tier "" ""
      rwa [lookupHQ_of_live he, lookupSite_empty hdoc, hzero, add_zero] at hwide
    · have hwide := h e.pair e.tier f.channel f.site
      rwa [lookupHQ_of_live he, hpair, lookupSite_of_live hf] at hwide
    · have hwide := h f.pair "" f.channel f.site
      rwa [lookupHQ_of_bare hbare, lookupSite_of_live hf, hzero, zero_add] at hwide

variable [IsStrictOrderedRing R]

lemma askOf_sub_bidOf (raw : Quote R) (hq site : Margin R) :
    askOf raw (totalMargin 0 hq site none) - bidOf raw (totalMargin 0 hq site none) =
      raw.ask - raw.bid + (width hq + width site) := by
  have hsum : totalMargin 0 hq site none = ⟨0 + hq.bidAmount + site.bidAmount,
    0 + hq.askAmount + site.askAmount, 0 + hq.skewAmount + site.skewAmount,
    0 + hq.spreadAmount + site.spreadAmount⟩ := rfl
  rw [hsum]
  simp only [askOf, bidOf, width]
  ring

lemma width_nonneg {m : Margin R} (hbid : ¬ m.bidAmount < 0) (hask : ¬ m.askAmount < 0)
    (hspread : 0 ≤ m.spreadAmount) : 0 ≤ width m := by
  have := not_lt.mp hbid
  have := not_lt.mp hask
  unfold width
  linarith

lemma widens_of_spreads (hdoc : Accepted doc) (hhq : ∀ e ∈ doc.hqMargin, 0 ≤ e.spreadAmount)
    (hsite : ∀ f ∈ doc.siteMargin, 0 ≤ f.spreadAmount) : Widens u doc ws := by
  have hwidth : ∀ e, HQLive u doc ws e → 0 ≤ width e.margin := fun e he =>
    width_nonneg (hdoc.hq e he.mem).2.1 (hdoc.hq e he.mem).2.2 (hhq e he.mem)
  have hwidth' : ∀ f, SiteLive u doc ws f → 0 ≤ width f.margin := fun f hf =>
    width_nonneg (hdoc.site f hf.mem).2.1.1 (hdoc.site f hf.mem).2.1.2 (hsite f hf.mem)
  exact ⟨hwidth, fun e f he hf _ => add_nonneg (hwidth e he) (hwidth' f hf),
    fun f hf _ => hwidth' f hf⟩

variable {env : Env} {fuel : ℕ} {clock now : Time} {t : PricingTable R}

/-- **Which accepted documents never narrow a quote**: at a time with the active windows `ws`, in
the order in which the call meets them, those whose entries that decide together widen it together.
The validator checks the amounts, not the spreads; without a negative spread this always holds. -/
theorem quote_width_iff (hval : validate fmtG doc = none)
    (ht : Reordered (buildPricingTable u doc) t)
    (hws : t.activeWindows env fuel (effectiveNow clock now) = some ws) :
    ((∀ raw profile tenor customerID,
        (buildPricingTable u doc).swapPoint.lookup ⟨raw.pair, tenor⟩ = none →
        matchCustomerRule (buildPricingTable u doc) customerID raw.pair ws = none →
        ∃ q, applyForCustomer env fuel clock t raw profile tenor now customerID = some q ∧
          raw.ask - raw.bid ≤ q.ask - q.bid) ↔ Widens u doc ws) ∧
      ((∀ e ∈ doc.hqMargin, 0 ≤ e.spreadAmount) → (∀ f ∈ doc.siteMargin, 0 ≤ f.spreadAmount) →
        Widens u doc ws) := by
  have hdoc := validate_eq_none.mp hval
  have hquote : ∀ raw profile tenor customerID,
      (buildPricingTable u doc).swapPoint.lookup ⟨raw.pair, tenor⟩ = none →
      matchCustomerRule (buildPricingTable u doc) customerID raw.pair ws = none →
      ((∃ q, applyForCustomer env fuel clock t raw profile tenor now customerID = some q ∧
          raw.ask - raw.bid ≤ q.ask - q.bid) ↔
        0 ≤ width ((buildPricingTable u doc).lookupHQ raw.pair profile.tier ws) + width
          ((buildPricingTable u doc).lookupSite raw.pair profile.channel profile.site ws)) := by
    intro raw profile tenor customerID hswap hrule
    have hswap0 : (buildPricingTable u doc).lookupSwap raw.pair tenor = 0 := by
      rw [PricingTable.lookupSwap, hswap]
      rfl
    rw [ht.applyForCustomer, hws, Option.map_some]
    simp only [Option.some.injEq, exists_eq_left', applyMargins, customerQuote, hrule, hswap0,
      askOf_sub_bidOf, le_add_iff_nonneg_right]
  refine ⟨?_, widens_of_spreads hdoc⟩
  rw [widens_iff hdoc]
  constructor
  · intro h pair tier channel site
    -- an accepted document has no swap point for the tenor "", and no rule is for the customer ""
    have hswap := lookup_swapPoint_empty u pair hdoc
    have hrule : matchCustomerRule (buildPricingTable u doc) "" pair ws = none := rfl
    exact (hquote ⟨pair, 0, 0, clock, 0, 0⟩ ⟨channel, site, tier⟩ "" "" hswap hrule).mp
      (h _ _ _ _ hswap hrule)
  · intro h raw profile tenor customerID hswap hrule
    exact (hquote raw profile tenor customerID hswap hrule).mpr (h _ _ _ _)

end

/-- The spreads of both layers are negative; the amounts of head office make up for it. -/
def tightDoc : PricingTableDoc ℚ :=
  { PricingTableDoc.empty with
    hqMargin := [⟨"USD/KRW", "VIP", 1, 1, 0, -1, ""⟩, ⟨"USD/KRW", "", 2, 0, 0, -1, ""⟩]
    siteMargin := [⟨"USD/KRW", "WEB", "", 0, 0, 0, -1, ""⟩, ⟨"EUR/KRW", "", "HQ", 1, 1, 0, 0, ""⟩] }

theorem quote_width_iff_tight :
    validate (fun _ => "") tightDoc = none ∧
      ∀ raw profile, ∃ q, applyForCustomer ⟨id, fun _ => none⟩ 0 ⟨0, 0⟩
          (buildPricingTable ⟨id, id⟩ tightDoc) raw profile "SPOT" ⟨0, 0⟩ "" = some q ∧
        raw.ask - raw.bid ≤ q.ask - q.bid := by
  have hval : validate (fun _ => "") tightDoc = none :=
    validate_eq_none.mpr ⟨by decide, by decide +kernel, by decide +kernel⟩
  have hhq : ∀ e ∈ tightDoc.hqMargin, 1 ≤ width e.margin := by
    decide +kernel
  have hsite : ∀ f ∈ tightDoc.siteMargin, -1 ≤ width f.margin ∧
      (f.pair = "USD/KRW" ∨ 0 ≤ width f.margin) := by
    decide +kernel
  have hall : HQLive ⟨id, id⟩ tightDoc [] ⟨"USD/KRW", "", 2, 0, 0, -1, ""⟩ :=
    ⟨⟨_ :: [], [], rfl, by simp⟩, .inr ⟨rfl, by simp⟩⟩
  have hwidens : Widens ⟨id, id⟩ tightDoc [] := by
    refine ⟨fun e he => zero_le_one.trans (hhq e he.mem), fun e f he hf _ => ?_,
      fun f hf hbare => ?_⟩
    · have := add_le_add (hhq e he.mem) (hsite f hf.mem).1
      rwa [add_neg_cancel] at this
    · exact (hsite f hf.mem).2.resolve_left fun hpair => hbare _ hall hpair.symm rfl
  exact ⟨hval, fun raw profile => (quote_width_iff hval (.refl _) rfl).1.mpr hwidens raw profile
    "SPOT" "" rfl rfl⟩

def spreadDoc (spread : ℚ) : PricingTableDoc ℚ :=
  { PricingTableDoc.empty with hqMargin := [⟨"USD/KRW", "VIP", 0, 0, 0, spread, ""⟩] }

def rawQuote : Quote ℚ := ⟨"USD/KRW", 1300, 1301, ⟨0, 0⟩, 0, 0⟩

theorem negative_spread_accepted :
    validate (fun _ => "") (spreadDoc (-2)) = none ∧
      ∃ q, applyForCustomer ⟨id, fun _ => none⟩ 0 ⟨0, 0⟩
          (buildPricingTable ⟨id, id⟩ (spreadDoc (-2))) rawQuote ⟨"WEB", "BRANCH", "VIP"⟩ "SPOT"
          ⟨0, 0⟩ "" = some q ∧
        q.ask - q.bid < rawQuote.ask - rawQuote.bid := by
  refine ⟨validate_eq_none.mpr ⟨by decide, by decide +kernel, by decide⟩, _, rfl, ?_⟩
  decide +kernel

end Wtg.Pricing.Validate
