import Wtg.Lib.Runs
import Wtg.Policy.Operations

/-! # What the operators asked for

`Intent` is the policy as the operators mean it: sets of names, compared up to case and surrounding
blanks, with blank names meaning nothing. -/

namespace Wtg.Policy.AsIntended

open Lib Lib.Runs Policy.Operations List

structure Intent where
  killSwitch : Bool
  channels : Set String
  window : MaintenanceWindow
  symbols : Set String
  routingKeys : Set String

def names (t : Text) (l : List String) : Set String := {n | n ≠ "" ∧ ∃ s ∈ l, t.fold s = n}

def unrestricted : Intent := ⟨false, ∅, {}, ∅, ∅⟩

def ofState (t : Text) (s : State) : Intent where
  killSwitch := s.killSwitch
  channels := names t s.killSwitchChannels
  window := s.maintenance
  symbols := names t s.blockedSymbols
  routingKeys := names t s.blockedRoutingKeys

/-- A call that changes the policy: a mutator, or `ApplyRemote` with a state from outside. -/
inductive Change
  | call (m : Mutator)
  | applyRemote (s : State)

def Intent.mutate (t : Text) (i : Intent) : Mutator → Intent
  | .setState s _ => ofState t s
  | .setKillSwitch active _ => { i with killSwitch := active, channels := ∅ }
  | .setKillSwitchScoped active channels _ =>
    { i with killSwitch := active, channels := names t channels }
  | .setMaintenance w _ =>
    if w.start ≠ zeroTime ∧ w.stop ≠ zeroTime ∧ w.stop ≤ w.start then i else { i with window := w }
  | .addBlockedSymbol sym _ => { i with symbols := i.symbols ∪ names t [sym] }
  | .removeBlockedSymbol sym _ => { i with symbols := i.symbols \ names t [sym] }
  | .addBlockedRoutingKey rk _ => { i with routingKeys := i.routingKeys ∪ names t [rk] }
  | .removeBlockedRoutingKey rk _ => { i with routingKeys := i.routingKeys \ names t [rk] }

def Intent.change (t : Text) (i : Intent) : Change → Intent
  | .call m => i.mutate t m
  | .applyRemote s => ofState t s

/-- **The kill switch is to refuse the request**: it is on, for all channels or for the channel of
the request. -/
def Intent.KillBlocks (t : Text) (i : Intent) (req : Request) : Prop :=
  i.killSwitch = true ∧ (i.channels = ∅ ∨ t.fold req.channel ∈ i.channels)

/-- **The rest is to refuse the request**: within the maintenance window, or for its routing key or
its symbol. -/
def Intent.RestBlocks (t : Text) (i : Intent) (now : ℤ) (req : Request) : Prop :=
  i.window.active now = true ∨ t.fold req.routingKey ∈ i.routingKeys ∨ t.fold req.symbol ∈ i.symbols

def engineStep (t : Text) (e : Engine) : ℤ × Change → Engine × Option State
  | (now, .call m) => m.run t now e
  | (_, .applyRemote s) => (Engine.applyRemote t s, none)

def intended (t : Text) : Intent → List (ℤ × Change) → Intent
  | i, [] => i
  | i, c :: cs => intended t (i.change t c.2) cs

def CleanChannels (t : Text) (s : State) : Prop :=
  s.killSwitch = true → ∀ c ∈ s.killSwitchChannels, t.fold c = c ∧ c ≠ ""

instance (t : Text) (s : State) : Decidable (CleanChannels t s) :=
  inferInstanceAs (Decidable (_ → _))

/-- The condition on a change: a state set as a whole has clean channels. -/
def Clean (t : Text) : Change → Prop
  | .call (.setState s _) => CleanChannels t s
  | .applyRemote s => CleanChannels t s
  | _ => True

structure Realises (t : Text) (e : Engine) (i : Intent) : Prop where
  killSwitch : e.state.killSwitch = i.killSwitch
  channels : e.state.killSwitch = true → {c | c ∈ e.state.killSwitchChannels} = i.channels
  window : e.state.maintenance = i.window
  symbols : (e.blockedSymbols : Set String) = i.symbols
  routingKeys : (e.blockedRkeys : Set String) = i.routingKeys
  noBlank : "" ∉ i.symbols ∧ "" ∉ i.routingKeys

variable {t : Text} {e : Engine} {i : Intent}

lemma blank_notMem_names (l : List String) : "" ∉ names t l := fun h => h.1 rfl

lemma coe_normalizeUpper (ht : t.Lawful) (l : List String) :
    ((normalizeUpper t l).toFinset : Set String) = names t l := by
  ext n
  simp only [coe_toFinset, Set.mem_ofPred_eq, normalizeUpper, mem_sortedNames, names,
    Text.trimUpper_eq_fold ht]

lemma setOf_normalizeChannels (l : List String) :
    {c | c ∈ normalizeChannels t l} = names t l := by
  ext n
  simp only [normalizeChannels, mem_collect, Set.mem_ofPred_eq, names, Finset.notMem_empty,
    not_false_iff, true_and]

lemma setOf_channels {s : State} (h : CleanChannels t s) (hon : s.killSwitch = true) :
    {c | c ∈ s.killSwitchChannels} = names t s.killSwitchChannels := by
  ext n
  constructor
  · intro hn
    obtain ⟨hfold, hne⟩ := h hon n hn
    exact ⟨hne, n, hn, hfold⟩
  · rintro ⟨-, c, hc, rfl⟩
    rw [(h hon c hc).1]
    exact hc

lemma realises_ofState (ht : t.Lawful) {s : State} (hclean : CleanChannels t s) (updatedAt : ℤ)
    (updatedBy : String) :
    Realises t (Engine.ofState (normalizeBlocked t
      { s with updatedAt := updatedAt, updatedBy := updatedBy })) (ofState t s) where
  killSwitch := rfl
  channels hon := setOf_channels hclean hon
  window := rfl
  symbols := coe_normalizeUpper ht s.blockedSymbols
  routingKeys := coe_normalizeUpper ht s.blockedRoutingKeys
  noBlank := ⟨blank_notMem_names _, blank_notMem_names _⟩

lemma coe_add (l : Listing) (x : String) :
    ((l.add x).set : Set String) = insert x (l.set : Set String) := by
  unfold Listing.add
  split_ifs with hx
  · exact (Set.insert_eq_of_mem (Finset.mem_coe.mpr hx)).symm
  · exact Finset.coe_insert x l.set

lemma names_singleton (ht : t.Lawful) {x : String} (hx : t.trimUpper x ≠ "") :
    names t [x] = {t.trimUpper x} := by
  ext n
  rw [Text.trimUpper_eq_fold ht] at hx ⊢
  simp only [names, mem_singleton, exists_eq_left, Set.mem_ofPred_eq, Set.mem_singleton_iff]
  constructor
  · rintro ⟨-, rfl⟩
    rfl
  · rintro rfl
    exact ⟨hx, rfl⟩

lemma names_blank (ht : t.Lawful) {x : String} (hx : t.trimUpper x = "") : names t [x] = ∅ := by
  ext n
  rw [Text.trimUpper_eq_fold ht] at hx
  simp only [names, mem_singleton, exists_eq_left, Set.mem_ofPred_eq, hx, Set.mem_empty_iff_false,
    iff_false]
  rintro ⟨hne, rfl⟩
  exact hne rfl

variable {S : Set String} {l : Listing}

lemma add_cases (ht : t.Lawful) (h : (l.set : Set String) = S) (hblank : "" ∉ S) (x : String) :
    (t.trimUpper x = "" ∧ S ∪ names t [x] = S) ∨
      (t.trimUpper x ≠ "" ∧ ((l.add (t.trimUpper x)).set : Set String) = S ∪ names t [x] ∧
        "" ∉ S ∪ names t [x]) := by
  by_cases hx : t.trimUpper x = ""
  · exact .inl ⟨hx, by rw [names_blank ht hx, Set.union_empty]⟩
  · refine .inr ⟨hx, ?_, fun hu => hu.elim hblank (blank_notMem_names [x])⟩
    rw [coe_add, h, names_singleton ht hx, Set.union_singleton]

lemma remove_cases (ht : t.Lawful) (h : (l.set : Set String) = S) (hblank : "" ∉ S) (x : String) :
    (t.trimUpper x = "" ∧ S \ names t [x] = S) ∨
      (t.trimUpper x ≠ "" ∧ t.trimUpper x ∉ l.set ∧ S \ names t [x] = S) ∨
      (t.trimUpper x ≠ "" ∧ t.trimUpper x ∈ l.set ∧
        ((l.remove (t.trimUpper x)).set : Set String) = S \ names t [x] ∧
        "" ∉ S \ names t [x]) := by
  by_cases hx : t.trimUpper x = ""
  · exact .inl ⟨hx, by rw [names_blank ht hx, Set.sdiff_empty]⟩
  by_cases hin : t.trimUpper x ∈ l.set
  · refine .inr (.inr ⟨hx, hin, ?_, fun hd => hblank hd.1⟩)
    rw [names_singleton ht hx, ← h]
    exact Finset.coe_erase _ _
  · refine .inr (.inl ⟨hx, hin, ?_⟩)
    rw [names_singleton ht hx]
    exact Set.sdiff_singleton_eq_self (h ▸ hin)

lemma names_nil : names t [] = ∅ := by
  ext n
  simp [names]

lemma Realises.symbols_of (h : Realises t e i) (hl : (l.set : Set String) = S) (hblank : "" ∉ S)
    (now : ℤ) (updatedBy : String) :
    Realises t ((e.withSymbols l).touch now updatedBy) { i with symbols := S } :=
  ⟨h.killSwitch, h.channels, h.window, hl, h.routingKeys, hblank, h.noBlank.2⟩

lemma Realises.rkeys_of (h : Realises t e i) (hl : (l.set : Set String) = S) (hblank : "" ∉ S)
    (now : ℤ) (updatedBy : String) :
    Realises t ((e.withRkeys l).touch now updatedBy) { i with routingKeys := S } :=
  ⟨h.killSwitch, h.channels, h.window, h.symbols, hl, h.noBlank.1, hblank⟩

lemma refuses_window (w : MaintenanceWindow) :
    (!isZero w.start && !isZero w.stop && !decide (w.start < w.stop)) = true ↔
      w.start ≠ zeroTime ∧ w.stop ≠ zeroTime ∧ w.stop ≤ w.start := by
  rw [Bool.and_eq_true, Bool.and_eq_true, and_assoc]
  simp only [isZero, Bool.not_eq_true', decide_eq_false_iff_not, not_lt, ne_eq]

lemma Realises.run (ht : t.Lawful) (h : Realises t e i) (now : ℤ) (m : Mutator)
    (hclean : Clean t (.call m)) : Realises t (m.run t now e).1 (i.mutate t m) := by
  have hsymbols : (e.symbols.set : Set String) = i.symbols := h.symbols
  have hrkeys : (e.rkeys.set : Set String) = i.routingKeys := h.routingKeys
  cases m with
  | setState s updatedBy => exact realises_ofState ht hclean now updatedBy
  | setKillSwitch active updatedBy =>
    exact ⟨rfl, fun _ => (setOf_normalizeChannels (t := t) []).trans names_nil, h.window, h.symbols,
      h.routingKeys, h.noBlank⟩
  | setKillSwitchScoped active channels updatedBy =>
    exact ⟨rfl, fun _ => setOf_normalizeChannels channels, h.window, h.symbols, h.routingKeys,
      h.noBlank⟩
  | setMaintenance w updatedBy =>
    simp only [Mutator.run, Engine.setMaintenance, Intent.mutate, refuses_window]
    split_ifs
    · exact h
    · exact ⟨h.killSwitch, h.channels, rfl, h.symbols, h.routingKeys, h.noBlank⟩
  | addBlockedSymbol sym updatedBy =>
    simp only [Mutator.run, Engine.addBlockedSymbol, Intent.mutate]
    rcases add_cases ht hsymbols h.noBlank.1 sym with ⟨hx, hS⟩ | ⟨hx, hl, hblank⟩
    · rw [if_pos hx, hS]
      exact h
    · rw [if_neg hx]
      exact h.symbols_of hl hblank now updatedBy
  | removeBlockedSymbol sym updatedBy =>
    simp only [Mutator.run, Engine.removeBlockedSymbol, Intent.mutate]
    rcases remove_cases ht hsymbols h.noBlank.1 sym with
      ⟨hx, hS⟩ | ⟨hx, hin, hS⟩ | ⟨hx, hin, hl, hblank⟩
    · rw [if_pos hx, hS]
      exact h
    · have hout : t.trimUpper sym ∉ e.blockedSymbols := hin
      rw [if_neg hx, if_pos hout, hS]
      exact h
    · have hlisted : ¬ t.trimUpper sym ∉ e.blockedSymbols := not_not_intro hin
      rw [if_neg hx, if_neg hlisted]
      exact h.symbols_of hl hblank now updatedBy
  | addBlockedRoutingKey rk updatedBy =>
    simp only [Mutator.run, Engine.addBlockedRoutingKey, Intent.mutate]
    rcases add_cases ht hrkeys h.noBlank.2 rk with ⟨hx, hS⟩ | ⟨hx, hl, hblank⟩
    · rw [if_pos hx, hS]
      exact h
    · rw [if_neg hx]
      exact h.rkeys_of hl hblank now updatedBy
  | removeBlockedRoutingKey rk updatedBy =>
    simp only [Mutator.run, Engine.removeBlockedRoutingKey, Intent.mutate]
    rcases remove_cases ht hrkeys h.noBlank.2 rk with
      ⟨hx, hS⟩ | ⟨hx, hin, hS⟩ | ⟨hx, hin, hl, hblank⟩
    · rw [if_pos hx, hS]
      exact h
    · have hout : t.trimUpper rk ∉ e.blockedRkeys := hin
      rw [if_neg hx, if_pos hout, hS]
      exact h
    · have hlisted : ¬ t.trimUpper rk ∉ e.blockedRkeys := not_not_intro hin
      rw [if_neg hx, if_neg hlisted]
      exact h.rkeys_of hl hblank now updatedBy

lemma Realises.step (ht : t.Lawful) (h : Realises t e i) (c : ℤ × Change) (hclean : Clean t c.2) :
    Realises t (engineStep t e c).1 (i.change t c.2) := by
  obtain ⟨now, c⟩ := c
  cases c with
  | call m => exact h.run ht now m hclean
  | applyRemote s => exact realises_ofState ht hclean s.updatedAt s.updatedBy

lemma realises_run (ht : t.Lawful) : ∀ (cs : List (ℤ × Change)) {e : Engine} {i : Intent},
    Realises t e i → (∀ c ∈ cs, Clean t c.2) → Realises t (final (engineStep t) e cs) (intended t i cs)
  | [], _, _, h, _ => h
  | c :: cs, _, _, h, hclean =>
    realises_run ht cs (h.step ht c (hclean c mem_cons_self))
      fun c' hc' => hclean c' (mem_cons_of_mem _ hc')

lemma realises_newEngine : Realises t newEngine unrestricted where
  killSwitch := rfl
  channels h := by cases h
  window := rfl
  symbols := Finset.coe_empty
  routingKeys := Finset.coe_empty
  noBlank := ⟨id, id⟩

lemma Realises.checkKillSwitch (h : Realises t e i) (req : Request) :
    (i.KillBlocks t req → ∃ msg, e.checkKillSwitch t req = some (.block .killSwitch msg)) ∧
      (¬ i.KillBlocks t req → e.checkKillSwitch t req = none) := by
  unfold Engine.checkKillSwitch Intent.KillBlocks
  cases hkill : e.state.killSwitch with
  | false =>
    have hoff : ¬ i.killSwitch = true := by rw [← h.killSwitch, hkill]; simp
    exact ⟨fun hb => absurd hb.1 hoff, fun _ => rfl⟩
  | true =>
    have hon : i.killSwitch = true := by rw [← h.killSwitch, hkill]
    have hch := h.channels hkill
    have hempty : i.channels = ∅ ↔ e.state.killSwitchChannels = [] := by
      rw [← hch, eq_nil_iff_forall_not_mem, Set.eq_empty_iff_forall_notMem]
      exact Iff.rfl
    have hmem : t.fold req.channel ∈ i.channels ↔
        t.fold req.channel ∈ e.state.killSwitchChannels := by rw [← hch]; exact Iff.rfl
    rw [hempty, hmem, if_pos (rfl : true = true)]
    by_cases hnil : e.state.killSwitchChannels = []
    · rw [if_pos hnil]
      exact ⟨fun _ => ⟨_, rfl⟩, fun hb => absurd ⟨hon, .inl hnil⟩ hb⟩
    rw [if_neg hnil]
    by_cases hin : t.fold req.channel ∈ e.state.killSwitchChannels
    · rw [if_pos hin]
      exact ⟨fun _ => ⟨_, rfl⟩, fun hb => absurd ⟨hon, .inr hin⟩ hb⟩
    · rw [if_neg hin]
      exact ⟨fun hb => absurd hb.2 (not_or.mpr ⟨hnil, hin⟩), fun _ => rfl⟩

lemma Realises.checkRest (h : Realises t e i) (now : ℤ) (req : Request) :
    ((e.checkRest t now req).allowed = false ↔ i.RestBlocks t now req) ∧
      (e.checkRest t now req).reason ≠ some .killSwitch := by
  have hrk : t.fold req.routingKey ∈ i.routingKeys ↔
      t.fold req.routingKey ≠ "" ∧ t.fold req.routingKey ∈ e.blockedRkeys := by
    rw [← Finset.mem_coe, h.routingKeys]
    exact ⟨fun hin => ⟨fun hb => h.noBlank.2 (hb ▸ hin), hin⟩, And.right⟩
  have hsym : t.fold req.symbol ∈ i.symbols ↔
      t.fold req.symbol ≠ "" ∧ t.fold req.symbol ∈ e.blockedSymbols := by
    rw [← Finset.mem_coe, h.symbols]
    exact ⟨fun hin => ⟨fun hb => h.noBlank.1 (hb ▸ hin), hin⟩, And.right⟩
  unfold Engine.checkRest Intent.RestBlocks
  rw [hrk, hsym, h.window]
  by_cases hwin : i.window.active now = true
  · rw [if_pos hwin]
    exact ⟨iff_of_true rfl (.inl hwin), by simp [Decision.reason]⟩
  rw [if_neg hwin]
  by_cases hkey : t.fold req.routingKey ≠ "" ∧ t.fold req.routingKey ∈ e.blockedRkeys
  · rw [if_pos hkey]
    exact ⟨iff_of_true rfl (.inr (.inl hkey)), by simp [Decision.reason]⟩
  rw [if_neg hkey]
  by_cases hs : t.fold req.symbol ≠ "" ∧ t.fold req.symbol ∈ e.blockedSymbols
  · rw [if_pos hs]
    exact ⟨iff_of_true rfl (.inr (.inr hs)), by simp [Decision.reason]⟩
  · rw [if_neg hs]
    refine ⟨iff_of_false (by simp [Decision.allowed]) ?_, by simp [Decision.reason]⟩
    rintro (hb | hb | hb)
    · exact hwin hb
    · exact hkey hb
    · exact hs hb

/-- **The engine decides as intended**, after any changes whose states set as a whole have clean
channels, for every request and time. -/
theorem decides_as_intended (t : Text) (ht : t.Lawful) (cs : List (ℤ × Change))
    (hclean : ∀ c ∈ cs, Clean t c.2) (now : ℤ) (req : Request) :
    ((((final (engineStep t) newEngine cs).check t now req).reason = some .killSwitch ↔
        (intended t unrestricted cs).KillBlocks t req)) ∧
      (¬ (intended t unrestricted cs).KillBlocks t req →
        (((final (engineStep t) newEngine cs).check t now req).allowed = false ↔
          (intended t unrestricted cs).RestBlocks t now req)) := by
  have h := realises_run ht cs realises_newEngine hclean
  obtain ⟨hkill, hpass⟩ := h.checkKillSwitch req
  obtain ⟨hrest, hreason⟩ := h.checkRest now req
  unfold Engine.check
  by_cases hb : (intended t unrestricted cs).KillBlocks t req
  · obtain ⟨msg, hmsg⟩ := hkill hb
    rw [hmsg]
    exact ⟨iff_of_true rfl hb, fun hn => absurd hb hn⟩
  · rw [hpass hb, Option.getD_none]
    exact ⟨iff_of_false hreason hb, fun _ => hrest⟩

def scopedSwitch : List (ℤ × Change) :=
  [(1, .call (.setKillSwitchScoped true [" web", "MOB", ""] "ops")),
    (2, .call (.addBlockedRoutingKey "ord0001 " "ops")),
    (3, .applyRemote { killSwitch := true, killSwitchChannels := ["WEB"], blockedSymbols := ["usdkrw"] })]

theorem scopedSwitch_decides :
    ((final (engineStep Text.ascii) newEngine scopedSwitch).check Text.ascii 9
        ⟨"web ", "ORD0001", ""⟩).reason = some .killSwitch := by
  refine (decides_as_intended Text.ascii Text.ascii_lawful scopedSwitch ?_ 9 _).1.mpr ?_
  · intro c hc
    simp only [scopedSwitch, mem_cons, not_mem_nil, or_false] at hc
    rcases hc with rfl | rfl | rfl
    · trivial
    · trivial
    · intro _
      decide
  · exact ⟨rfl, .inr ⟨by decide, "WEB", mem_cons_self, by decide⟩⟩

theorem web_not_blocked :
    (intended Text.ascii unrestricted
        [(0, .call (.setState { killSwitch := true, killSwitchChannels := ["web"] } "ops"))]).KillBlocks
        Text.ascii ⟨"WEB", "ORD0001", ""⟩ ∧
      (final (engineStep Text.ascii) newEngine
        [(0, .call (.setState { killSwitch := true, killSwitchChannels := ["web"] } "ops"))]).check
        Text.ascii 0 ⟨"WEB", "ORD0001", ""⟩ = .allow := by
  refine ⟨⟨rfl, .inr ⟨by decide, "web", mem_cons_self, by decide⟩⟩, ?_⟩
  decide

end Wtg.Policy.AsIntended
