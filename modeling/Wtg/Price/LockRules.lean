import Wtg.Lib.Protocol
import Wtg.Price.Lock

/-! # Rules for the lock handlers

What a lock handler does before and after the steps that matter to a proof: it checks the request,
loads the pricing table and reads the clock, and it refuses by a reply without a response. -/

namespace Wtg.Price.LockRules

open Lib.Program Lib.Protocol Price.Best Price.Lock
open QuoteId.Registry (Profile)

variable {γ : Type} {P : Rules LockCall Answer γ} {g : γ}

/-- The handler has issued nothing. -/
def Refused {β : Type} : Reply β → Prop
  | .ok _ => False
  | .noContent | .error _ _ | .stuck => True

lemma Refused.ne_ok {β : Type} {reply : Reply β} (h : Refused reply) (out : β) :
    reply ≠ .ok out := by
  rintro rfl
  exact h

lemma follows_withBody {α β : Type} {Q : γ → Reply β → Prop} {devMode : Bool} {r : Request α}
    {handle : α → Issuer (Reply β)} (hrefused : ∀ reply, Refused reply → Q g reply)
    (hhandle : ∀ body, Follows P g (handle body) Q) :
    Follows P g (withBody devMode r handle) Q := by
  unfold withBody
  split
  · exact hrefused _ True.intro
  · split
    · exact hrefused _ True.intro
    · split
      · exact hrefused _ True.intro
      · exact hhandle _

/-! ## Forward locks -/

section

variable {lib : GoLib} {fuel : ℕ} {deps : ForwardLockDeps}
  {Q : γ → Reply ForwardLockResponse → Prop}

lemma follows_lockForward {req : ForwardLockRequest} {profile : Profile}
    {spot : BestSymbolStat ℚ} (hload : P.Ignores .load) (hnow : P.Ignores .now)
    (hrefused : ∀ reply, Refused reply → Q g reply)
    (hissue : ∀ leg now tbl, Follows P g (issueForward deps profile leg.cq now)
      fun g' issued => Q g' (.ok (forwardResponse req spot leg now tbl issued))) :
    Follows P g (lockForward lib fuel deps req profile spot) Q := by
  refine follows_ignored hload fun loaded => ?_
  rcases loaded with _ | tbl
  · exact hrefused _ True.intro
  refine follows_ignored hnow fun (now : Pricing.BusinessDays.Time) => ?_
  dsimp only
  split
  · exact hrefused _ True.intro
  · exact hrefused _ True.intro
  · exact follows_bind.mpr (hissue _ now tbl)

lemma follows_forwardLock {r : Request ForwardLockRequest} (hstats : P.pre g .stats)
    (hrefused : ∀ g' reply, Refused reply → Q g' reply)
    (hlock : ∀ req profile best g' spot, P.post g .stats best g' →
      best (symbolOf req.pair) = some spot →
      Follows P g' (lockForward lib fuel deps req profile spot) Q) :
    Follows P g (forwardLock lib fuel deps r) Q := by
  refine follows_withBody (hrefused g) fun body => ?_
  simp only
  split
  · exact hrefused g _ True.intro
  split
  · exact hrefused g _ True.intro
  split
  · refine follows_perform.mpr ⟨hstats, fun (best : String → Option (BestSymbolStat ℚ)) g' hg' => ?_⟩
    split
    · exact hrefused g' _ True.intro
    · rename_i spot hspot
      exact hlock body.normalized _ best g' spot hg' hspot
  · exact hrefused g _ True.intro

end

/-! ## Swap locks -/

variable {lib : GoLib} {fuel : ℕ} {deps : SwapLockDeps} {Q : γ → Reply SwapLockResponse → Prop}

lemma follows_lockSwap {req : SwapLockRequest} {profile : Profile} {rawBid rawAsk : ℚ}
    (hload : P.Ignores .load) (hnow : P.Ignores .now)
    (hrefused : ∀ reply, Refused reply → Q g reply)
    (hissue : ∀ issuer near far now validUntil tbl, Follows P g
      (issueSwap issuer req profile near far rawBid rawAsk now validUntil tbl) Q) :
    Follows P g (lockSwap lib fuel deps req profile rawBid rawAsk) Q := by
  refine follows_ignored hload fun loaded => ?_
  rcases loaded with _ | tbl
  · exact hrefused _ True.intro
  refine follows_ignored hnow fun (now : Pricing.BusinessDays.Time) => ?_
  dsimp only
  split
  · exact hrefused _ True.intro
  · exact hrefused _ True.intro
  split
  · exact hrefused _ True.intro
  · exact hrefused _ True.intro
  split
  · exact hissue _ _ _ now _ tbl
  · exact hrefused _ True.intro

lemma follows_swapLock {r : Request SwapLockRequest} (hstats : P.pre g .stats)
    (hrefused : ∀ g' reply, Refused reply → Q g' reply)
    (hlock : ∀ (req : SwapLockRequest) profile best g', P.post g .stats best g' →
      Follows P g' (lookupSpotRawForSwap deps best req.pair) fun g'' raw =>
        ∀ rawBid rawAsk, raw = some (rawBid, rawAsk) →
          Follows P g'' (lockSwap lib fuel deps req profile rawBid rawAsk) Q) :
    Follows P g (swapLock lib fuel deps r) Q := by
  refine follows_withBody (hrefused g) fun body => ?_
  simp only
  split
  · exact hrefused g _ True.intro
  split
  · exact hrefused g _ True.intro
  split
  · exact hrefused g _ True.intro
  rename_i profile _
  split
  · refine follows_perform.mpr ⟨hstats, fun best g' hg' => ?_⟩
    refine follows_bind.mpr (follows_mono (fun g'' raw hraw => ?_)
      (hlock body.normalized profile best g' hg'))
    rcases raw with _ | ⟨rawBid, rawAsk⟩
    · exact hrefused g'' _ True.intro
    · exact hraw rawBid rawAsk rfl
  · exact hrefused g _ True.intro

end Wtg.Price.LockRules
