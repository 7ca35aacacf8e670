import Wtg.Pricing.Doc

/-! # Swap point updates

`ApplySwapToDoc` of `pkg/pricing/swapapply.go` changes the swap points of one pair in a document,
from which `BuildPricingTable` makes the table that prices are taken from. -/

namespace Wtg.Pricing.SwapApply

open Lib Lib.Upsert Pricing.Table Pricing.Doc SwapEntryDoc

structure SwapUpdate (R : Type*) where
  pair : String
  tenor : String
  bid : R
  ask : R
deriving DecidableEq, Repr

variable {R : Type*}

def SwapUpdate.write (up : SwapUpdate R) (e : SwapEntryDoc R) : SwapEntryDoc R :=
  { e with bidAmount := up.bid, askAmount := up.ask }

lemma write_key (up : SwapUpdate R) (e : SwapEntryDoc R) : (up.write e).key = e.key := rfl

def lastUpdate (ups : List (SwapUpdate R)) (tenor : String) : Option (SwapUpdate R) :=
  (ups.filter (·.tenor = tenor)).getLast?

variable {ups : List (SwapUpdate R)} {up : SwapUpdate R} {tenor : String}

lemma lastUpdate_tenor (h : lastUpdate ups tenor = some up) : up.tenor = tenor := by
  have hmem := List.mem_filter.mp (List.mem_of_getLast? h)
  simpa using hmem.2

lemma version_succ (v : Int64) : (v + 1).toInt = v.toInt + 1 ↔ v ≠ Int64.maxValue := by
  have hlo : -9223372036854775808 ≤ v.toInt := v.minValue_le_toInt
  have hhi : v.toInt ≤ 9223372036854775807 := v.toInt_le
  have hmax : v = Int64.maxValue ↔ v.toInt = 9223372036854775807 := Int64.toInt_inj.symm
  have hone : (1 : Int64).toInt = 1 := rfl
  rw [Ne, hmax, Int64.toInt_add, hone, Int.bmod_def]
  omega

/-! ## Updates of a document -/

section

variable [Zero R]

def SwapUpdate.entry (pair : String) (up : SwapUpdate R) : SwapEntryDoc R :=
  ⟨pair, up.tenor, up.bid, up.ask, 0, 0⟩

def applyUpdate (pair : String) (es : List (SwapEntryDoc R)) (up : SwapUpdate R) :
    List (SwapEntryDoc R) :=
  upsert SwapEntryDoc.key ⟨pair, up.tenor⟩ up.write (up.entry pair) es

/-- `ApplySwapToDoc`, between `json.Unmarshal` and `json.Marshal`; the version wraps around. -/
def applySwapToDoc (doc : PricingTableDoc R) (pair : String) (ups : List (SwapUpdate R))
    (clear : Bool) : PricingTableDoc R :=
  { doc with
    swapPoint :=
      if clear then doc.swapPoint.filter (·.pair ≠ pair)
      else ups.foldl (applyUpdate pair) doc.swapPoint
    version := doc.version + 1 }

lemma entry_key (pair : String) (up : SwapUpdate R) :
    (up.entry pair).key = ⟨pair, up.tenor⟩ := rfl

lemma rows_applyUpdates (pair : String) (k : SwapKey) (es : List (SwapEntryDoc R))
    (ups : List (SwapUpdate R)) :
    rows key k (ups.foldl (applyUpdate pair) es) =
      match if k.pair = pair then lastUpdate ups k.tenor else none with
      | none => rows key k es
      | some up => modifyHead up.write (up.entry pair) (rows key k es) := by
  induction ups using List.reverseRecOn with
  | nil => simp [lastUpdate]
  | append_singleton ups up ih =>
    rw [List.foldl_append, List.foldl_cons, List.foldl_nil]
    by_cases hk : k = ⟨pair, up.tenor⟩
    · subst hk
      have hlast : lastUpdate (ups ++ [up]) up.tenor = some up := by simp [lastUpdate]
      rw [applyUpdate, rows_upsert_self _ (write_key up) (entry_key pair up), ih, if_pos rfl,
        if_pos rfl, hlast]
      rcases hold : lastUpdate ups up.tenor with _ | old
      · rfl
      · -- the earlier update of the same entry is overwritten
        have hentry : up.write (old.entry pair) = up.entry pair := by
          rw [SwapUpdate.write, SwapUpdate.entry, lastUpdate_tenor hold]
          rfl
        exact modifyHead_modifyHead (f := old.write) (g := up.write) (fun _ => rfl) hentry _
    · have hlast : (if k.pair = pair then lastUpdate (ups ++ [up]) k.tenor else none) =
          if k.pair = pair then lastUpdate ups k.tenor else none := by
        by_cases hp : k.pair = pair
        · have ht : up.tenor ≠ k.tenor := fun ht => hk (by rw [← hp, ht])
          simp [lastUpdate, ht]
        · rw [if_neg hp, if_neg hp]
      rw [applyUpdate, rows_upsert_ne _ hk (write_key up) (entry_key pair up), ih, hlast]

variable (u : Runes) (doc : PricingTableDoc R)

lemma lookup_mentioned (pair : String) (h : lastUpdate ups tenor = some up) :
    (buildPricingTable u (applySwapToDoc doc pair ups false)).swapPoint.lookup ⟨pair, tenor⟩ =
      (modifyHead up.write (up.entry pair)
        (rows key ⟨pair, tenor⟩ doc.swapPoint)).getLast?.map margin := by
  show (ofEntries _ _ (ups.foldl (applyUpdate pair) doc.swapPoint)).lookup _ = _
  rw [lookup_ofEntries, rows_applyUpdates, if_pos rfl, h]

lemma lookup_other (pair : String) {k : SwapKey}
    (h : k.pair = pair → lastUpdate ups k.tenor = none) :
    (buildPricingTable u (applySwapToDoc doc pair ups false)).swapPoint.lookup k =
      (buildPricingTable u doc).swapPoint.lookup k := by
  have hnone : (if k.pair = pair then lastUpdate ups k.tenor else none) = none := by
    by_cases hp : k.pair = pair
    · rw [if_pos hp, h hp]
    · rw [if_neg hp]
  show (ofEntries _ _ (ups.foldl (applyUpdate pair) doc.swapPoint)).lookup _ =
    (ofEntries _ _ doc.swapPoint).lookup _
  rw [lookup_ofEntries, rows_applyUpdates, hnone, lookup_ofEntries]

/-- **Updates are visible**: the table shows the last update of each tenor with the skew and spread
of before, and is otherwise the one of before with the next version. -/
structure Visible (u : Runes) (doc : PricingTableDoc R) (pair : String)
    (ups : List (SwapUpdate R)) (t' : PricingTable R) : Prop where
  mentioned : ∀ tenor up, lastUpdate ups tenor = some up →
    t'.swapPoint.lookup ⟨pair, tenor⟩ = some
      { bidAmount := up.bid
        askAmount := up.ask
        skewAmount := ((buildPricingTable u doc).lookupSwap pair tenor).skewAmount
        spreadAmount := ((buildPricingTable u doc).lookupSwap pair tenor).spreadAmount }
  other : ∀ k : SwapKey, (k.pair = pair → lastUpdate ups k.tenor = none) →
    t'.swapPoint.lookup k = (buildPricingTable u doc).swapPoint.lookup k
  hqMargin : t'.hqMargin = (buildPricingTable u doc).hqMargin
  siteMargin : t'.siteMargin = (buildPricingTable u doc).siteMargin
  customerMargin : t'.customerMargin = (buildPricingTable u doc).customerMargin
  timeWindows : t'.timeWindows = (buildPricingTable u doc).timeWindows
  calendar : t'.calendar = (buildPricingTable u doc).calendar
  version : t'.version = (buildPricingTable u doc).version + 1

/-- A table shows an update of a key when the key has at most one entry, or the last one already has
the prices of the update. -/
def Shown (doc : PricingTableDoc R) (pair tenor : String) (up : SwapUpdate R) : Prop :=
  (rows SwapEntryDoc.key ⟨pair, tenor⟩ doc.swapPoint).length ≤ 1 ∨
    ∃ e, (rows SwapEntryDoc.key ⟨pair, tenor⟩ doc.swapPoint).getLast? = some e ∧
      e.bidAmount = up.bid ∧ e.askAmount = up.ask

lemma lookupSwap_build (pair tenor : String) :
    (buildPricingTable u doc).lookupSwap pair tenor =
      ((rows key ⟨pair, tenor⟩ doc.swapPoint).getLast?.map
        margin).getD 0 := by
  rw [PricingTable.lookupSwap, buildPricingTable, lookup_ofEntries]

lemma mentioned_iff_shown (pair : String) (h : lastUpdate ups tenor = some up) :
    (buildPricingTable u (applySwapToDoc doc pair ups false)).swapPoint.lookup ⟨pair, tenor⟩ = some
        { bidAmount := up.bid
          askAmount := up.ask
          skewAmount := ((buildPricingTable u doc).lookupSwap pair tenor).skewAmount
          spreadAmount := ((buildPricingTable u doc).lookupSwap pair tenor).spreadAmount } ↔
      Shown doc pair tenor up := by
  rw [lookup_mentioned u doc pair h, lookupSwap_build, Shown]
  -- the live entry is the last one; the changed entry is the first one
  rcases rows key ⟨pair, tenor⟩ doc.swapPoint with _ | ⟨e, es⟩
  · exact iff_of_true rfl (.inl (Nat.zero_le _))
  · rcases List.eq_nil_or_concat es with rfl | ⟨es, last, rfl⟩
    · exact iff_of_true rfl (.inl (Nat.le_refl _))
    · have hlast : ∀ a : SwapEntryDoc R, (a :: es.concat last).getLast? = some last := fun a => by
        rw [List.concat_eq_append, ← List.cons_append, List.getLast?_concat]
      rw [modifyHead, hlast, hlast]
      simp [margin]

/-- **When swap updates are visible.** -/
theorem visible_iff (u : Runes) (doc : PricingTableDoc R) (pair : String)
    (ups : List (SwapUpdate R)) :
    Visible u doc pair ups (buildPricingTable u (applySwapToDoc doc pair ups false)) ↔
      doc.version ≠ Int64.maxValue ∧
        ∀ tenor up, lastUpdate ups tenor = some up → Shown doc pair tenor up := by
  constructor
  · intro h
    refine ⟨(version_succ doc.version).mp h.version, fun tenor up hup => ?_⟩
    exact (mentioned_iff_shown u doc pair hup).mp (h.mentioned tenor up hup)
  · rintro ⟨hversion, hshown⟩
    exact
      { mentioned := fun tenor up hup =>
          (mentioned_iff_shown u doc pair hup).mpr (hshown tenor up hup)
        other := fun k hk => lookup_other u doc pair hk
        hqMargin := rfl
        siteMargin := rfl
        customerMargin := rfl
        timeWindows := rfl
        calendar := rfl
        version := (version_succ doc.version).mpr hversion }

end

def repeatedDoc : PricingTableDoc ℤ :=
  { PricingTableDoc.empty with
    swapPoint := [⟨"USD/KRW", "1M", 1, 2, 0, 0⟩, ⟨"USD/KRW", "1M", 3, 4, 0, 0⟩] }

theorem not_visible_repeatedDoc :
    ¬ Visible ⟨id, id⟩ repeatedDoc "USD/KRW" [⟨"USD/KRW", "1M", 5, 6⟩]
      (buildPricingTable ⟨id, id⟩
        (applySwapToDoc repeatedDoc "USD/KRW" [⟨"USD/KRW", "1M", 5, 6⟩] false)) := by
  intro h
  have hshow := h.mentioned "1M" ⟨"USD/KRW", "1M", 5, 6⟩ (by decide)
  have hlive : (buildPricingTable ⟨id, id⟩ (applySwapToDoc repeatedDoc "USD/KRW"
      [⟨"USD/KRW", "1M", 5, 6⟩] false)).swapPoint.lookup ⟨"USD/KRW", "1M"⟩ =
        some ⟨3, 4, 0, 0⟩ := by decide
  rw [hlive] at hshow
  exact absurd (congrArg (Option.map Margin.bidAmount) hshow) (by decide)

end Wtg.Pricing.SwapApply
