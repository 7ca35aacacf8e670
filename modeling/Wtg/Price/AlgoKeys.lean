import Mathlib.Data.List.Dedup
import Wtg.Lib.Numeral
import Wtg.Price.Best

/-! # Stream keys of the algo feed

Quotes of the algo feed are numbered and kept by stream; the key of a stream is a text made of its
source, symbol and tenor (`streamKeyFor`). -/

namespace Wtg.Price.AlgoKeys

open Lib Lib.Numeral Price.Best String

def spotTenor : String := "SPT"

def isSynth (source : String) : Bool := source = sourceBest || source = sourceCross

structure Stream where
  source : String
  symbol : String
  tenor : String
deriving DecidableEq, Repr

def baseKey (source symbol : String) : String :=
  if isSynth source then symbol else source ++ "|" ++ symbol

def withTenor (k tenor : String) : String :=
  if tenor ≠ "" ∧ tenor ≠ spotTenor then k ++ "@" ++ tenor else k

def streamKeyFor (source symbol tenor : String) : String := withTenor (baseKey source symbol) tenor

def Stream.key (st : Stream) : String := streamKeyFor st.source st.symbol st.tenor

structure NameSet where
  names : List String
  nodup : names.Nodup
  ne_empty : "" ∉ names

def NameSet.ofList (names : List String) : NameSet where
  names := (names.filter (· ≠ "")).dedup
  nodup := List.nodup_dedup _
  ne_empty := by simp

structure AlgoSub where
  symbolSet : NameSet
  sources : NameSet
  tenorSet : NameSet

def AlgoSub.accepts (sub : AlgoSub) (st : Stream) : Bool :=
  (sub.symbolSet.names.isEmpty || sub.symbolSet.names.contains st.symbol) &&
    (if sub.sources.names.isEmpty then isSynth st.source
      else sub.sources.names.contains st.source) &&
    (if sub.tenorSet.names.isEmpty then st.tenor = spotTenor
      else sub.tenorSet.names.contains st.tenor)

structure KeyOrders where
  symbols : String → RangeOrder String
  sources : RangeOrder String
  tenors : RangeOrder String
  rings : RangeOrder String

def subTenors (sub : AlgoSub) (o : KeyOrders) : List String :=
  if sub.tenorSet.names.isEmpty then [spotTenor] else o.tenors.list sub.tenorSet.names

def replayBaseKeys (sub : AlgoSub) (o : KeyOrders) (ringKeys : List String) : List String :=
  if sub.sources.names.isEmpty then
    if sub.symbolSet.names.isEmpty then
      (o.rings.list ringKeys).filter fun k => !k.toList.contains '|'
    else (o.symbols "").list sub.symbolSet.names
  else if sub.symbolSet.names.isEmpty then
    (o.rings.list ringKeys).filter fun k =>
      sub.sources.names.any fun src => (src ++ "|").toList.isPrefixOf k.toList
  else
    (o.sources.list sub.sources.names).flatMap fun src =>
      ((o.symbols src).list sub.symbolSet.names).map fun sym => src ++ "|" ++ sym

def replayKeys (sub : AlgoSub) (o : KeyOrders) (ringKeys : List String) : List String :=
  (replayBaseKeys sub o ringKeys).flatMap fun bk =>
    if bk.toList.contains '@' then [bk] else (subTenors sub o).map (withTenor bk)

/-- The name holds none of the separators of a key. -/
def Clean (name : String) : Prop := '|' ∉ name.toList ∧ '@' ∉ name.toList

instance : DecidablePred Clean := fun _ => inferInstanceAs (Decidable (_ ∧ _))

structure Stream.Plain (st : Stream) : Prop where
  source : Clean st.source
  symbol : Clean st.symbol
  tenor : st.tenor ≠ ""

instance : DecidablePred Stream.Plain := fun st =>
  decidable_of_iff (Clean st.source ∧ Clean st.symbol ∧ st.tenor ≠ "")
    ⟨fun h => ⟨h.1, h.2.1, h.2.2⟩, fun h => ⟨h.source, h.symbol, h.tenor⟩⟩

/-- A filter whose names are clean, and whose sources are raw ones. -/
structure AlgoSub.Plain (sub : AlgoSub) : Prop where
  symbols : ∀ sym ∈ sub.symbolSet.names, Clean sym
  sources : ∀ src ∈ sub.sources.names, Clean src ∧ isSynth src = false

def AlgoSub.SpotOnly (sub : AlgoSub) (ringKeys : List String) : Prop :=
  sub.symbolSet.names = [] → ∀ k ∈ ringKeys, '@' ∉ k.toList

instance (sub : AlgoSub) (ringKeys : List String) : Decidable (sub.SpotOnly ringKeys) :=
  inferInstanceAs (Decidable (_ → _))

lemma withTenor_spot (k : String) : withTenor k spotTenor = k := by simp [withTenor]

lemma toList_withTenor (k : String) {tenor : String} (hne : tenor ≠ "")
    (hspot : tenor ≠ spotTenor) : (withTenor k tenor).toList = k.toList ++ '@' :: tenor.toList := by
  simp [withTenor, hne, hspot]

lemma withTenor_inj {k k' tenor tenor' : String} (hk : '@' ∉ k.toList) (hk' : '@' ∉ k'.toList)
    (hne : tenor ≠ "") (hne' : tenor' ≠ "") (h : withTenor k tenor = withTenor k' tenor') :
    k = k' ∧ tenor = tenor' := by
  by_cases hspot : tenor = spotTenor <;> by_cases hspot' : tenor' = spotTenor
  · subst hspot hspot'
    rw [withTenor_spot, withTenor_spot] at h
    exact ⟨h, rfl⟩
  · subst hspot
    rw [withTenor_spot] at h
    rw [h, toList_withTenor k' hne' hspot'] at hk
    exact absurd (by simp) hk
  · subst hspot'
    rw [withTenor_spot] at h
    rw [← h, toList_withTenor k hne hspot] at hk'
    exact absurd (by simp) hk'
  · have hlist := congrArg toList h
    rw [toList_withTenor k hne hspot, toList_withTenor k' hne' hspot'] at hlist
    obtain ⟨hbase, htenor⟩ := sep_append_inj hk hk' hlist
    exact ⟨toList_inj.mp hbase, toList_inj.mp htenor⟩

lemma baseKey_synth {source : String} (h : isSynth source = true) (symbol : String) :
    baseKey source symbol = symbol := by simp [baseKey, h]

lemma baseKey_raw {source : String} (h : isSynth source = false) (symbol : String) :
    baseKey source symbol = source ++ "|" ++ symbol := by simp [baseKey, h]

lemma toList_raw (source symbol : String) :
    (source ++ "|" ++ symbol).toList = source.toList ++ '|' :: symbol.toList := by simp

variable {source symbol : String}

lemma at_not_mem_raw (hsource : Clean source) (hsymbol : Clean symbol) :
    '@' ∉ (source ++ "|" ++ symbol).toList := by
  rw [toList_raw, List.mem_append, List.mem_cons]
  rintro (h | h | h)
  · exact hsource.2 h
  · exact absurd h (by decide)
  · exact hsymbol.2 h

lemma at_not_mem_baseKey (hsource : Clean source) (hsymbol : Clean symbol) :
    '@' ∉ (baseKey source symbol).toList := by
  rcases h : isSynth source with _ | _
  · rw [baseKey_raw h]
    exact at_not_mem_raw hsource hsymbol
  · rw [baseKey_synth h]
    exact hsymbol.2

lemma bar_mem_baseKey (source : String) {symbol : String} (hsymbol : Clean symbol) :
    '|' ∈ (baseKey source symbol).toList ↔ isSynth source = false := by
  rcases h : isSynth source with _ | _
  · rw [baseKey_raw h, toList_raw]
    simp
  · rw [baseKey_synth h]
    exact iff_of_false hsymbol.1 (by simp)

lemma raw_inj {source source' symbol symbol' : String} (hsource : Clean source)
    (hsource' : Clean source') (h : source ++ "|" ++ symbol = source' ++ "|" ++ symbol') :
    source = source' ∧ symbol = symbol' := by
  have hlist := congrArg toList h
  rw [toList_raw, toList_raw] at hlist
  obtain ⟨hs, hy⟩ := sep_append_inj hsource.1 hsource'.1 hlist
  exact ⟨toList_inj.mp hs, toList_inj.mp hy⟩

variable {sub : AlgoSub} {o : KeyOrders} {ringKeys : List String}

def AlgoSub.acceptsSource (sub : AlgoSub) (source : String) : Prop :=
  if sub.sources.names = [] then isSynth source = true else source ∈ sub.sources.names

def AlgoSub.acceptsTenor (sub : AlgoSub) (tenor : String) : Prop :=
  if sub.tenorSet.names = [] then tenor = spotTenor else tenor ∈ sub.tenorSet.names

lemma accepts_iff (sub : AlgoSub) (st : Stream) :
    sub.accepts st = true ↔ (sub.symbolSet.names = [] ∨ st.symbol ∈ sub.symbolSet.names) ∧
      sub.acceptsSource st.source ∧ sub.acceptsTenor st.tenor := by
  unfold AlgoSub.accepts AlgoSub.acceptsSource AlgoSub.acceptsTenor
  by_cases hsources : sub.sources.names = [] <;> by_cases htenors : sub.tenorSet.names = [] <;>
    simp [hsources, htenors, and_assoc]

lemma mem_subTenors (tenor : String) : tenor ∈ subTenors sub o ↔ sub.acceptsTenor tenor := by
  unfold subTenors AlgoSub.acceptsTenor
  by_cases htenors : sub.tenorSet.names = []
  · simp [htenors]
  · simp [htenors, (o.tenors.perm _).mem_iff]

lemma AlgoSub.acceptsTenor.ne_empty {tenor : String} (h : sub.acceptsTenor tenor) :
    tenor ≠ "" := by
  unfold AlgoSub.acceptsTenor at h
  split at h
  · rw [h]
    decide
  · rintro rfl
    exact sub.tenorSet.ne_empty h

lemma isPrefixOf_raw {src source symbol : String} (hsrc : Clean src) (hsource : Clean source) :
    (src ++ "|").toList.isPrefixOf (source ++ "|" ++ symbol).toList = true ↔ source = src := by
  rw [List.isPrefixOf_iff_prefix, toList_raw]
  constructor
  · rintro ⟨rest, hrest⟩
    have hlist : source.toList ++ '|' :: symbol.toList = src.toList ++ '|' :: rest := by
      rw [← hrest]
      simp
    exact toList_inj.mp (sep_append_inj hsource.1 hsrc.1 hlist).1
  · rintro rfl
    exact ⟨symbol.toList, by simp⟩

variable (hsub : sub.Plain)
include hsub

lemma baseKey_mem_iff (hsource : Clean source) (hsymbol : Clean symbol) :
    baseKey source symbol ∈ replayBaseKeys sub o ringKeys ↔
      (sub.symbolSet.names = [] ∨ symbol ∈ sub.symbolSet.names) ∧ sub.acceptsSource source ∧
        (sub.symbolSet.names = [] → baseKey source symbol ∈ ringKeys) := by
  have hbar := bar_mem_baseKey source hsymbol
  unfold replayBaseKeys AlgoSub.acceptsSource
  by_cases hsources : sub.sources.names = [] <;> by_cases hsymbols : sub.symbolSet.names = []
  · -- all synthetic rings
    simp [hsources, hsymbols, List.mem_filter, (o.rings.perm _).mem_iff, hbar, and_comm]
  · -- the symbols of the filter
    simp only [hsources, hsymbols, List.isEmpty_nil, List.isEmpty_iff, if_true, if_false,
      false_or, false_imp_iff, and_true, ((o.symbols "").perm _).mem_iff]
    rcases hsynth : isSynth source with _ | _
    · refine iff_of_false (fun hmem => ?_) (by simp)
      exact (hsub.symbols _ hmem).1 (hbar.mpr hsynth)
    · rw [baseKey_synth hsynth]
      simp
  · -- the rings of the sources of the filter
    simp only [hsources, hsymbols, List.isEmpty_nil, List.isEmpty_iff, if_true, if_false,
      true_or, true_and, true_imp_iff, List.mem_filter, (o.rings.perm _).mem_iff,
      List.any_eq_true, and_comm (a := source ∈ _)]
    refine and_congr_right fun _ => ?_
    constructor
    · rintro ⟨src, hsrc, hstart⟩
      have hraw : isSynth source = false := by
        rw [← hbar]
        obtain ⟨rest, hrest⟩ := List.isPrefixOf_iff_prefix.mp hstart
        rw [← hrest]
        simp
      rw [baseKey_raw hraw, isPrefixOf_raw (hsub.sources src hsrc).1 hsource] at hstart
      rwa [hstart]
    · intro hmem
      have hraw := (hsub.sources source hmem).2
      refine ⟨source, hmem, ?_⟩
      rw [baseKey_raw hraw, isPrefixOf_raw hsource hsource]
  · -- the sources and symbols of the filter
    simp only [hsources, hsymbols, List.isEmpty_iff, if_false, false_or, false_imp_iff, and_true,
      List.mem_flatMap, List.mem_map, (o.sources.perm _).mem_iff]
    constructor
    · rintro ⟨src, hsrc, sym, hsym, heq⟩
      rw [((o.symbols src).perm _).mem_iff] at hsym
      have hraw : isSynth source = false := by
        rw [← hbar, ← heq, toList_raw]
        simp
      rw [baseKey_raw hraw] at heq
      obtain ⟨rfl, rfl⟩ := raw_inj (hsub.sources src hsrc).1 hsource heq
      exact ⟨hsym, hsrc⟩
    · rintro ⟨hsym, hsrc⟩
      refine ⟨source, hsrc, symbol, ((o.symbols source).perm _).mem_iff.mpr hsym, ?_⟩
      rw [baseKey_raw (hsub.sources source hsrc).2]

lemma at_not_mem_of_base (hspot : sub.SpotOnly ringKeys) {bk : String}
    (h : bk ∈ replayBaseKeys sub o ringKeys) : '@' ∉ bk.toList := by
  unfold replayBaseKeys at h
  split at h
  · split at h
    · rename_i hsymbols
      have hmem := (o.rings.perm _).mem_iff.mp (List.mem_filter.mp h).1
      exact hspot (List.isEmpty_iff.mp hsymbols) bk hmem
    · exact (hsub.symbols bk (((o.symbols "").perm _).mem_iff.mp h)).2
  · split at h
    · rename_i hsymbols
      have hmem := (o.rings.perm _).mem_iff.mp (List.mem_filter.mp h).1
      exact hspot (List.isEmpty_iff.mp hsymbols) bk hmem
    · obtain ⟨src, hsrc, hmem⟩ := List.mem_flatMap.mp h
      obtain ⟨sym, hsym, rfl⟩ := List.mem_map.mp hmem
      have hsrc' := (o.sources.perm _).mem_iff.mp hsrc
      have hsym' := ((o.symbols src).perm _).mem_iff.mp hsym
      exact at_not_mem_raw (hsub.sources src hsrc').1 (hsub.symbols sym hsym')

lemma replayKeys_eq (hspot : sub.SpotOnly ringKeys) :
    replayKeys sub o ringKeys = (replayBaseKeys sub o ringKeys).flatMap fun bk =>
      (subTenors sub o).map (withTenor bk) := by
  unfold replayKeys
  refine List.flatMap_congr fun bk hbk => ?_
  have hat := at_not_mem_of_base hsub hspot hbk
  rw [if_neg]
  simpa using hat

lemma mem_replayKeys_iff (hspot : sub.SpotOnly ringKeys) {st : Stream} (hst : st.Plain) :
    st.key ∈ replayKeys sub o ringKeys ↔ sub.accepts st = true ∧
      (sub.symbolSet.names = [] → baseKey st.source st.symbol ∈ ringKeys) := by
  have hbase : baseKey st.source st.symbol ∈ replayBaseKeys sub o ringKeys ↔ _ :=
    baseKey_mem_iff hsub hst.source hst.symbol
  have hat := at_not_mem_baseKey hst.source hst.symbol
  rw [replayKeys_eq hsub hspot, accepts_iff]
  constructor
  · intro h
    obtain ⟨bk, hbk, htn⟩ := List.mem_flatMap.mp h
    obtain ⟨tn, htn, heq⟩ := List.mem_map.mp htn
    have htn' := (mem_subTenors tn).mp htn
    obtain ⟨rfl, rfl⟩ := withTenor_inj (at_not_mem_of_base hsub hspot hbk) hat htn'.ne_empty
      hst.tenor heq
    obtain ⟨hsym, hsrc, hring⟩ := hbase.mp hbk
    exact ⟨⟨hsym, hsrc, htn'⟩, hring⟩
  · rintro ⟨⟨hsym, hsrc, htn⟩, hring⟩
    refine List.mem_flatMap.mpr ⟨_, hbase.mpr ⟨hsym, hsrc, hring⟩, ?_⟩
    exact List.mem_map.mpr ⟨_, (mem_subTenors _).mpr htn, rfl⟩

lemma replayBaseKeys_nodup (hrings : ringKeys.Nodup) : (replayBaseKeys sub o ringKeys).Nodup := by
  unfold replayBaseKeys
  split
  · split
    · exact ((o.rings.perm _).nodup_iff.mpr hrings).filter _
    · exact ((o.symbols "").perm _).nodup_iff.mpr sub.symbolSet.nodup
  · split
    · exact ((o.rings.perm _).nodup_iff.mpr hrings).filter _
    · rw [List.nodup_flatMap]
      constructor
      · intro src _
        refine (((o.symbols src).perm _).nodup_iff.mpr sub.symbolSet.nodup).map fun sym sym' h => ?_
        have hlist := congrArg toList h
        rw [toList_raw, toList_raw] at hlist
        exact toList_inj.mp (List.cons.inj (List.append_cancel_left hlist)).2
      · have hnodup := (o.sources.perm _).nodup_iff.mpr sub.sources.nodup
        refine hnodup.pairwise_of_forall_ne fun src hsrc src' hsrc' hne => ?_
        intro k hk hk'
        obtain ⟨sym, -, rfl⟩ := List.mem_map.mp hk
        obtain ⟨sym', -, heq⟩ := List.mem_map.mp hk'
        have hclean := (hsub.sources src ((o.sources.perm _).mem_iff.mp hsrc)).1
        have hclean' := (hsub.sources src' ((o.sources.perm _).mem_iff.mp hsrc')).1
        exact hne (raw_inj hclean' hclean heq).1.symm

lemma replayKeys_nodup (hspot : sub.SpotOnly ringKeys) (hrings : ringKeys.Nodup) :
    (replayKeys sub o ringKeys).Nodup := by
  have hne : ∀ tn ∈ subTenors sub o, tn ≠ "" := fun tn htn => ((mem_subTenors tn).mp htn).ne_empty
  have htenors : (subTenors sub o).Nodup := by
    unfold subTenors
    split
    · exact List.nodup_singleton _
    · exact (o.tenors.perm _).nodup_iff.mpr sub.tenorSet.nodup
  rw [replayKeys_eq hsub hspot, List.nodup_flatMap]
  constructor
  · intro bk hbk
    have hat := at_not_mem_of_base hsub hspot hbk
    refine htenors.map_on fun tn htn tn' htn' h => ?_
    exact (withTenor_inj hat hat (hne tn htn) (hne tn' htn') h).2
  · refine (replayBaseKeys_nodup hsub hrings).pairwise_of_forall_ne fun bk hbk bk' hbk' hbne => ?_
    intro k hk hk'
    obtain ⟨tn, htn, rfl⟩ := List.mem_map.mp hk
    obtain ⟨tn', htn', heq⟩ := List.mem_map.mp hk'
    have hinj := withTenor_inj (at_not_mem_of_base hsub hspot hbk')
      (at_not_mem_of_base hsub hspot hbk) (hne tn' htn') (hne tn htn) heq
    exact hbne hinj.1.symm

end Wtg.Price.AlgoKeys
