import Wtg.Api.Frames
import Wtg.Policy.AsIntended

/-! # What the handlers hand to the broker

A frame reaches the broker if the envelope is valid, the policy lets it pass and its target is known
(`frameFor_eq_ok`); it is then determined by the target. So an item of a bulk is handed over as the
same transaction alone (`bulk_eq_single_iff`), and a blocked routing key stays out
(`blocked_key_stays_out_iff`), each exactly under a condition. -/

namespace Wtg.Api.Handlers

open Lib Lib.Runs Policy.Operations Policy.AsIntended Routing.Rules Svcio Option
open Api.Frames

/-! ## The target determines the frame -/

section

variable {W : World} {deps : Deps} {now : ℤ} {p : Principal} {traceIDHex : String} {env : Envelope}

variable (W p traceIDHex env) in
def frameTo (xchg rkey : String) : Frame where
  keyc := env.keycValue
  xchg := xchg
  rkey := rkey
  traceIDHex := traceIDHex
  pkey := env.pkey
  nkey := env.nkey
  cookie := p.cookie
  body := dataBytes W.enc env.data

lemma frameFor_eq_ok {frame : Frame} :
    frameFor W deps now p traceIDHex env = .ok frame ↔
      env.validateRequest = none ∧ policyFailure W deps now p env = none ∧
        ∃ xchg rkey, env.target deps.routes = .ok (xchg, rkey) ∧
          frame = frameTo W p traceIDHex env xchg rkey := by
  unfold frameFor Envelope.buildFrame frameTo
  rcases env.validateRequest with _ | message
  · rcases policyFailure W deps now p env with _ | failure
    · rcases env.target deps.routes with err | ⟨xchg, rkey⟩
      · cases err <;> simp
      · simp [eq_comm]
    · simp
  · simp

lemma withLayout_rkey (frame : Frame) : (withLayout W deps p env frame).rkey = frame.rkey := by
  unfold withLayout
  split <;> rfl

lemma withLayout_eq_self {frame : Frame} :
    withLayout W deps p env frame = frame ↔
      ∀ body spec, layout W deps p env frame.rkey = some (body, spec) →
        body = [] ∨ body = frame.body := by
  unfold withLayout
  rcases hlay : layout W deps p env frame.rkey with _ | ⟨_ | ⟨b, bs⟩, spec⟩
  · simp
  · simp
  · constructor
    · intro heq body spec' hsome
      have hbody := congrArg Frame.body heq
      simp only [some.injEq, Prod.mk.injEq] at hsome
      exact .inr (hsome.1 ▸ hbody)
    · intro h
      rcases h _ _ rfl with hnil | hbody
      · cases hnil
      · exact congrArg (fun body => { frame with body := body }) hbody

end

/-- **Bulk equals single**, exactly if no layout is written over the data, or it gives the same
bytes. -/
theorem bulk_eq_single_iff (W : World) (deps : Deps) (now : ℤ) (p : Principal) (traceIDHex : String)
    (env : Envelope) :
    (processBulkItem W deps now p traceIDHex env).toOption =
        (transaction W deps now p traceIDHex env).toOption ↔
      (env.validateRequest = none → policyFailure W deps now p env = none →
        ∀ xchg rkey, env.target deps.routes = .ok (xchg, rkey) →
          ∀ body spec, layout W deps p env rkey = some (body, spec) →
            body = [] ∨ body = dataBytes W.enc env.data) := by
  unfold processBulkItem transaction
  rcases hframe : frameFor W deps now p traceIDHex env with failure | frame
  · refine iff_of_true rfl fun hvalid hpolicy xchg rkey htarget => ?_
    have hok : frameFor W deps now p traceIDHex env = .ok (frameTo W p traceIDHex env xchg rkey) :=
      frameFor_eq_ok.mpr ⟨hvalid, hpolicy, xchg, rkey, htarget, rfl⟩
    rw [hframe] at hok
    cases hok
  · obtain ⟨hvalid, hpolicy, xchg, rkey, htarget, rfl⟩ := frameFor_eq_ok.mp hframe
    simp only [Except.map, Except.toOption, some.injEq]
    rw [eq_comm, withLayout_eq_self]
    constructor
    · intro h _ _ xchg' rkey' htarget'
      rw [htarget] at htarget'
      cases htarget'
      exact h
    · intro h
      exact h hvalid hpolicy xchg rkey htarget

/-! ## A bulk that differs -/

section

def twoCharacters : GoMap String Wire.SvcSpec :=
  (∅ : GoMap String Wire.SvcSpec).insert "W1" ⟨[], [⟨"a", 2, 0, "", []⟩]⟩

theorem bulk_ne_single :
    ((transaction asciiWorld ⟨none, none, some twoCharacters⟩ 0 webUser ""
        { routingKey := "W1", data := utf8 "\x7b\x7d" }).toOption.map Frame.body =
          some (utf8 "  ")) ∧
    ((processBulkItem asciiWorld ⟨none, none, some twoCharacters⟩ 0 webUser ""
        { routingKey := "W1", data := utf8 "\x7b\x7d" }).toOption.map Frame.body =
          some (utf8 "\x7b\x7d")) ∧
    utf8 "  " ≠ utf8 "\x7b\x7d" := by
  decide +kernel

end

lemma rkey_of_check_allow {t : Text} {now : ℤ} {e : Engine} {req : Request}
    (h : e.check t now req = .allow) (hne : t.fold req.routingKey ≠ "") :
    t.fold req.routingKey ∉ e.blockedRkeys := by
  intro hmem
  unfold Engine.check at h
  rcases hkill : e.checkKillSwitch t req with _ | d
  · rw [hkill, getD_none, Engine.checkRest] at h
    split_ifs at h with hmaint hkey
    · exact hkey ⟨hne, hmem⟩
  · -- the kill switch only refuses
    rw [hkill, getD_some] at h
    subst h
    unfold Engine.checkKillSwitch at hkill
    split_ifs at hkill <;> simp at hkill

lemma blank_notMem_step {t : Text} {e : Engine} (h : "" ∉ e.blockedRkeys) :
    ∀ change, "" ∉ (engineStep t e change).1.blockedRkeys := by
  have hnormal : ∀ l, "" ∉ (normalizeUpper t l).toFinset := by
    intro l hmem
    rw [List.mem_toFinset, normalizeUpper, mem_sortedNames] at hmem
    exact hmem.1 rfl
  rintro ⟨now, m | s⟩
  · cases m with
    | setState s updatedBy => exact hnormal _
    | setKillSwitch | setKillSwitchScoped => exact h
    | setMaintenance | addBlockedSymbol | removeBlockedSymbol =>
      simp only [engineStep, Mutator.run, Engine.setMaintenance, Engine.addBlockedSymbol,
        Engine.removeBlockedSymbol]
      split_ifs <;> exact h
    | addBlockedRoutingKey rk updatedBy =>
      simp only [engineStep, Mutator.run, Engine.addBlockedRoutingKey]
      split_ifs with hblank
      · exact h
      · have hadd : ((e.rkeys.add (t.trimUpper rk)).set : Set String) =
            insert (t.trimUpper rk) (e.blockedRkeys : Set String) := coe_add _ _
        intro hmem
        have hmem : "" ∈ ((e.rkeys.add (t.trimUpper rk)).set : Set String) := hmem
        rw [hadd] at hmem
        rcases hmem with heq | hmem
        · exact hblank heq.symm
        · exact h hmem
    | removeBlockedRoutingKey rk updatedBy =>
      simp only [engineStep, Mutator.run, Engine.removeBlockedRoutingKey]
      split_ifs
      · exact h
      · exact fun hmem => h (Finset.mem_of_mem_erase hmem)
      · exact h
  · exact hnormal _

def policyAfter (t : Text) (changes : List (ℤ × Change)) : Engine :=
  final (engineStep t) newEngine changes

lemma blank_notMem_policyAfter (t : Text) (changes : List (ℤ × Change)) :
    "" ∉ (policyAfter t changes).blockedRkeys := by
  have hrun : ∀ (changes : List (ℤ × Change)) (e : Engine), "" ∉ e.blockedRkeys →
      "" ∉ (final (engineStep t) e changes).blockedRkeys := by
    intro changes
    induction changes with
    | nil => exact fun _ h => h
    | cons c cs ih => exact fun e h => ih _ (blank_notMem_step h c)
  exact hrun changes newEngine (by simp [newEngine])

/-- One of the two handlers hands the frame to `MQ.Call`. -/
def Handed (W : World) (deps : Deps) (now : ℤ) (p : Principal) (traceIDHex : String)
    (env : Envelope) (frame : Frame) : Prop :=
  transaction W deps now p traceIDHex env = .ok frame ∨
    processBulkItem W deps now p traceIDHex env = .ok frame

lemma Handed.rkey {W : World} {deps : Deps} {now : ℤ} {p : Principal} {traceIDHex : String}
    {env : Envelope} {frame : Frame} (h : Handed W deps now p traceIDHex env frame) :
    env.validateRequest = none ∧ policyFailure W deps now p env = none ∧
      ∃ xchg, env.target deps.routes = .ok (xchg, frame.rkey) := by
  have hframe : ∃ built, frameFor W deps now p traceIDHex env = .ok built ∧
      built.rkey = frame.rkey := by
    rcases h with h | h
    · unfold transaction at h
      rcases hbuilt : frameFor W deps now p traceIDHex env with failure | built
      · rw [hbuilt] at h
        cases h
      · rw [hbuilt] at h
        cases h
        exact ⟨built, rfl, (withLayout_rkey built).symm⟩
    · exact ⟨frame, h, rfl⟩
  obtain ⟨built, hbuilt, hrkey⟩ := hframe
  obtain ⟨hvalid, hpolicy, xchg, rkey, htarget, rfl⟩ := frameFor_eq_ok.mp hbuilt
  exact ⟨hvalid, hpolicy, xchg, hrkey ▸ htarget⟩

/-- **Blocked routing keys stay out**, exactly if no alias that passes stands for one: the policy is
asked about the envelope's own routing key. -/
theorem blocked_key_stays_out_iff (W : World) (changes : List (ℤ × Change))
    (routes : Option Registry) (svcio : Option (GoMap String Wire.SvcSpec)) (now : ℤ) (p : Principal)
    (traceIDHex : String) (env : Envelope) :
    (∀ frame, Handed W ⟨some (policyAfter W.text changes), routes, svcio⟩ now p traceIDHex env frame →
        W.text.fold frame.rkey ∉ (policyAfter W.text changes).state.blockedRoutingKeys) ↔
      (env.aliasName ≠ "" → env.validateRequest = none →
        policyFailure W ⟨some (policyAfter W.text changes), routes, svcio⟩ now p env = none →
          ∀ rule, resolve routes env.aliasName = .ok rule →
            W.text.fold rule.routingKey ∉
              (policyAfter W.text changes).state.blockedRoutingKeys) := by
  have hblank := blank_notMem_policyAfter W.text changes
  have hagree := (policyAfter W.text changes).rkeys_agree
  generalize policyAfter W.text changes = e at *
  have hmem : ∀ k, k ∈ e.state.blockedRoutingKeys ↔ k ∈ e.blockedRkeys := by
    intro k
    rw [hagree, List.mem_toFinset]
  constructor
  · intro h halias hvalid hpolicy rule hrule
    -- the bulk handler hands over the frame with the rule's key
    have htarget : env.target routes = .ok (rule.exchange, rule.routingKey) := by
      simp only [Envelope.target, if_pos halias, hrule]
    exact h (frameTo W p traceIDHex env rule.exchange rule.routingKey)
      (.inr (frameFor_eq_ok.mpr ⟨hvalid, hpolicy, _, _, htarget, rfl⟩))
  · intro h frame hframe
    obtain ⟨hvalid, hpolicy, xchg, htarget⟩ := hframe.rkey
    simp only [Envelope.target] at htarget
    split_ifs at htarget with halias
    · rcases hrule : resolve routes env.aliasName with err | rule
      · rw [hrule] at htarget
        cases htarget
      · rw [hrule] at htarget
        simp only [Except.ok.injEq, Prod.mk.injEq] at htarget
        rw [← htarget.2]
        exact h halias hvalid hpolicy rule hrule
    · -- the routing key of the envelope is what the policy saw
      simp only [Except.ok.injEq, Prod.mk.injEq] at htarget
      rw [← htarget.2, hmem]
      by_cases hne : W.text.fold env.routingKey = ""
      · rw [hne]
        exact hblank
      · have hallow : e.check W.text now (policyRequest W p env) = .allow := by
          unfold policyFailure at hpolicy
          rcases hcheck : e.check W.text now (policyRequest W p env) with _ | ⟨reason, message⟩
          · rfl
          · simp [hcheck] at hpolicy
        have hkey : (policyRequest W p env).routingKey = env.routingKey := rfl
        rw [← hkey] at hne ⊢
        exact rkey_of_check_allow hallow hne

/-! ## An alias of a blocked key -/

def orderRule : Rule := ⟨"ORD", "ORDER", "NEW", true⟩

def orderRoutes : Registry where
  rules := (∅ : GoMap String Rule).insert "ORD" orderRule
  keyed := by
    intro k r h
    by_cases hk : k = "ORD"
    · subst hk
      rw [AList.lookup_insert] at h
      cases h
      rfl
    · rw [AList.lookup_insert_ne hk] at h
      cases h

def newBlocked : List (ℤ × Change) := [(0, .call (.addBlockedRoutingKey "NEW" "op"))]

theorem alias_reaches_blocked_key :
    ((transaction asciiWorld ⟨some (policyAfter .ascii newBlocked), some orderRoutes, none⟩ 0 webUser
        "" { aliasName := "ORD" }).toOption.map Frame.rkey = some "NEW") ∧
    ((processBulkItem asciiWorld ⟨some (policyAfter .ascii newBlocked), some orderRoutes, none⟩ 0
        webUser "" { aliasName := "ORD" }).toOption.map Frame.rkey = some "NEW") ∧
    Text.ascii.fold "NEW" ∈ (policyAfter .ascii newBlocked).state.blockedRoutingKeys := by
  decide +kernel

end Wtg.Api.Handlers
