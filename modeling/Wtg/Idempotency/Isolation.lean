import Wtg.Idempotency.Stores
import Wtg.Lib.Runs

/-! # Callers that do not disturb each other

A caller is a user with an `Idempotency-Key` header. -/

namespace Wtg.Idempotency.Isolation

open Lib Lib.Runs Idempotency.Stores List Function AList TtlStore RedisStore

structure Caller where
  usid : String
  header : String
  usid_ne : usid ≠ ""
  header_ne : header ≠ ""
  deriving DecidableEq

def Caller.key (c : Caller) : String := makeKey c.usid c.header

inductive Op
  | reserve (bodyHash : Hash)
  | commit (reply : CachedReply)
  | rollback

inductive Returned
  | reserved (answer : Reservation)
  | completed (ok : Bool)
  deriving DecidableEq

abbrev Call := ℤ × Caller × Op

def memoryStep (s : MemoryStore) : Call → MemoryStore × Returned
  | (now, c, .reserve h) => ((s.reserve now c.key h).1, .reserved (s.reserve now c.key h).2)
  | (now, c, .commit reply) => (s.commit now c.key reply, .completed true)
  | (_, c, .rollback) => (s.rollback c.key, .completed true)

def redisStep (r : RedisStore) (db : DB) : Call → DB × Returned
  | (now, c, .reserve h) =>
    ((r.reserve now db c.key h).1, .reserved (r.reserve now db c.key h).2)
  | (now, c, .commit reply) =>
    ((r.commit now db c.key reply).1, .completed (r.commit now db c.key reply).2)
  | (now, c, .rollback) => (r.rollback now db c.key, .completed true)

def of (c : Caller) (call : Call) : Bool := decide (call.2.1 = c)

/-! ## Isolation -/

section

variable {σ : Type} (step : σ → Call → σ × Returned) (s₀ : σ) (p q : Caller)

/-- In every history `q` is told what it would be told if `p` had done nothing. -/
def Undisturbed : Prop :=
  ∀ calls : List Call, Chronological calls →
    (log step s₀ calls).filter (fun x => of q x.1) =
      (log step s₀ (calls.filter fun call => !of p call)).filter fun x => of q x.1

def Isolated : Prop := Undisturbed step s₀ p q ∧ Undisturbed step s₀ q p

variable {step s₀ p q}

lemma Undisturbed.last (h : Undisturbed step s₀ p q) (hpq : p ≠ q) (calls : List Call) (op : Op)
    (htime : ∀ call ∈ calls, call.1 = 0) :
    (step (final step s₀ calls) (0, q, op)).2 =
      (step (final step s₀ (calls.filter fun call => !of p call)) (0, q, op)).2 := by
  have hchron : Chronological (calls ++ [(0, q, op)]) := by
    refine chronological_of_forall_eq (t := 0) fun call hmem => ?_
    rcases mem_append.mp hmem with hmem | hmem
    · exact htime call hmem
    · rw [mem_singleton.mp hmem]
  have heq := h _ hchron
  have hq : of q (0, q, op) = true := by simp [of]
  have hp : (!of p (0, q, op)) = true := by simp [of, hpq.symm]
  simp only [filter_append, log_append, filter_cons, hp, hq, if_true, filter_nil,
    log_cons, log_nil] at heq
  have hlast := singleton_inj.mp (append_inj' heq rfl).2
  exact (Prod.mk.inj hlast).2

lemma undisturbed_of_local {τ : Type} (view : σ → τ) (near : Caller → Prop) (hq : near q)
    (hp : ¬ near p) (hframe : ∀ s call, ¬ near call.2.1 → view (step s call).1 = view s)
    (hlocal : ∀ s t call, near call.2.1 → view s = view t →
      (step s call).2 = (step t call).2 ∧ view (step s call).1 = view (step t call).1) :
    Undisturbed step s₀ p q := by
  intro calls _
  refine filter_log_filter (fun s t => view s = view t) (fun s t call hst _ => ?_)
    (fun s t call hst hdrop => ?_) calls _ _ rfl
  · by_cases hnear : near call.2.1
    · obtain ⟨hans, hview⟩ := hlocal s t call hnear hst
      exact ⟨hview, fun _ => hans⟩
    · refine ⟨by rw [hframe s call hnear, hframe t call hnear, hst], fun hsee => absurd ?_ hnear⟩
      rw [of_decide_eq_true hsee]
      exact hq
  · have hcall : call.2.1 = p := by simpa [of] using hdrop
    rw [← hcall] at hp
    exact ⟨decide_eq_false fun heq => hp (heq ▸ hq), (hframe s call hp).trans hst⟩

end

/-- A call answers and changes its own key by what it finds there, and no other key. -/
lemma memory_step {s t : MemoryStore} (call : Call) (httl : s.ttl = t.ttl)
    (h : s.entries.lookup call.2.1.key = t.entries.lookup call.2.1.key) :
    (memoryStep s call).2 = (memoryStep t call).2 ∧ (memoryStep s call).1.ttl = t.ttl ∧
      (memoryStep s call).1.entries.lookup call.2.1.key =
        (memoryStep t call).1.entries.lookup call.2.1.key ∧
      ∀ k, k ≠ call.2.1.key → (memoryStep s call).1.entries.lookup k = s.entries.lookup k := by
  obtain ⟨now, c, op⟩ := call
  simp only at h ⊢
  cases op with
  | reserve hash =>
    simp only [memoryStep, MemoryStore.reserve, MemoryStore.makeReservation, h]
    rcases t.entries.lookup c.key with _ | e
    · exact ⟨rfl, httl, by simp [httl], fun k hk => lookup_insert_ne hk⟩
    · dsimp only
      split_ifs
      · exact ⟨rfl, httl, by simp [httl], fun k hk => (lookup_insert_ne hk).trans (lookup_erase_ne hk)⟩
      · exact ⟨rfl, httl, h, fun _ _ => rfl⟩
      · cases e.reply <;> exact ⟨rfl, httl, h, fun _ _ => rfl⟩
  | commit reply =>
    simp only [memoryStep, MemoryStore.commit, h]
    rcases t.entries.lookup c.key with _ | e <;>
      exact ⟨trivial, httl, by simp [httl], fun k hk => lookup_insert_ne hk⟩
  | rollback =>
    simp only [memoryStep, MemoryStore.rollback, h]
    rcases t.entries.lookup c.key with _ | e
    · exact ⟨trivial, httl, h, fun _ _ => rfl⟩
    · dsimp only
      split_ifs
      · exact ⟨trivial, httl, by simp, fun k hk => lookup_erase_ne hk⟩
      · exact ⟨trivial, httl, h, fun _ _ => rfl⟩

variable {p q : Caller}

lemma memory_undisturbed (ttl : ℤ) (h : p.key ≠ q.key) :
    Undisturbed memoryStep (newMemoryStore ttl) p q := by
  refine undisturbed_of_local (fun s => (s.ttl, s.entries.lookup q.key)) (·.key = q.key) rfl h
    (fun s call hcall => ?_) fun s t call hcall hst => ?_
  · obtain ⟨-, httl, -, hframe⟩ := memory_step (s := s) call rfl rfl
    rw [httl, hframe q.key (Ne.symm hcall)]
  · obtain ⟨httl, hlook⟩ := Prod.mk.inj hst
    obtain ⟨hans, httl', hlook', -⟩ := memory_step call httl (by rw [hcall]; exact hlook)
    rw [hcall] at hlook'
    rw [httl', (memory_step (s := t) call rfl rfl).2.1, hlook']
    exact ⟨hans, rfl⟩

lemma memory_disturbed (ttl : ℤ) (hpq : p ≠ q) (h : p.key = q.key) :
    ¬ Undisturbed memoryStep (newMemoryStore ttl) p q := by
  intro hiso
  have hlast := hiso.last hpq [(0, p, .reserve zeroHash)] (.reserve zeroHash) (by simp)
  have hwith : (memoryStep (final memoryStep (newMemoryStore ttl) [(0, p, .reserve zeroHash)])
      (0, q, .reserve zeroHash)).2 = .reserved .inFlight := by
    have hlook : (final memoryStep (newMemoryStore ttl) [(0, p, .reserve zeroHash)]).entries.lookup
        q.key = some ⟨zeroHash, none, effectiveTTL ttl⟩ := by
      rw [← h]
      simp [memoryStep, MemoryStore.reserve, newMemoryStore, MemoryStore.makeReservation,
        -insert_empty]
    have hpos : ¬ effectiveTTL ttl < 0 := by
      unfold effectiveTTL
      split_ifs <;> omega
    simp only [memoryStep, MemoryStore.reserve, hlook, hpos, if_false, ne_eq, not_true]
  rw [hwith] at hlast
  simp [of, memoryStep, MemoryStore.reserve, newMemoryStore, MemoryStore.makeReservation] at hlast

def stripMarks : List Char → List Char
  | 'r' :: ':' :: cs => stripMarks cs
  | cs => cs

def stem (key : String) : String := .ofList (stripMarks key.toList.reverse).reverse

@[simp] lemma stem_replyKey (key : String) : stem (replyKey key) = stem key := by
  have h : (replyKey key).toList.reverse = 'r' :: ':' :: key.toList.reverse := by
    simp [replyKey]
  rw [stem, h, stripMarks, stem]

def Caller.redisKey (c : Caller) (r : RedisStore) : String := r.pfx ++ c.key

lemma redis_step (r : RedisStore) {db db' : DB} (call : Call)
    (hk : db (call.2.1.redisKey r) = db' (call.2.1.redisKey r))
    (hr : db (replyKey (call.2.1.redisKey r)) = db' (replyKey (call.2.1.redisKey r))) :
    (redisStep r db call).2 = (redisStep r db' call).2 ∧
      (redisStep r db call).1 (call.2.1.redisKey r) =
        (redisStep r db' call).1 (call.2.1.redisKey r) ∧
      (redisStep r db call).1 (replyKey (call.2.1.redisKey r)) =
        (redisStep r db' call).1 (replyKey (call.2.1.redisKey r)) ∧
      ∀ k, k ≠ call.2.1.redisKey r → k ≠ replyKey (call.2.1.redisKey r) →
        (redisStep r db call).1 k = db k := by
  obtain ⟨now, c, op⟩ := call
  have hne := replyKey_ne (r.pfx ++ c.key)
  simp only [Caller.redisKey] at hk hr ⊢
  cases op with
  | reserve h =>
    simp only [redisStep, reserve, luaReserve, setPX, get_congr hk, get_congr hr]
    rcases db'.get now (r.pfx ++ c.key) with _ | cur
    · dsimp only
      split_ifs
      · exact ⟨rfl, hk, hr, fun _ _ _ => rfl⟩
      · exact ⟨rfl, by simp, by simpa [hne] using hr, fun k h1 _ => set_ne db h1 ..⟩
    · dsimp only
      split_ifs
      · exact ⟨rfl, hk, hr, fun _ _ _ => rfl⟩
      · rcases db'.get now (replyKey (r.pfx ++ c.key)) with _ | v <;>
          exact ⟨rfl, hk, hr, fun _ _ _ => rfl⟩
  | commit reply =>
    simp only [redisStep, commit, luaCommit, setPX]
    split_ifs
    · exact ⟨rfl, hk, hr, fun _ _ _ => rfl⟩
    · refine ⟨rfl, pexpire_congr _ ?_ .., ?_, fun k h1 h2 => ?_⟩
      · rw [set_ne _ hne.symm, set_ne _ hne.symm, hk]
      · simp only [Option.map_some]
        rw [pexpire_ne _ hne, pexpire_ne _ hne]
        simp
      · exact (pexpire_ne _ h1 ..).trans (set_ne db h2 ..)
  | rollback =>
    simp only [redisStep, rollback, luaRollback, get_congr hr]
    rcases db'.get now (replyKey (r.pfx ++ c.key)) with _ | v
    · exact ⟨trivial, by simp, by simpa [hne] using hr, fun k h1 _ => del_ne db h1⟩
    · exact ⟨trivial, hk, hr, fun _ _ _ => rfl⟩

lemma redis_undisturbed (r : RedisStore) (h : stem (p.redisKey r) ≠ stem (q.redisKey r)) :
    Undisturbed (redisStep r) empty p q := by
  refine undisturbed_of_local (fun db (k : {k // stem k = stem (q.redisKey r)}) => db k)
    (fun c => stem (c.redisKey r) = stem (q.redisKey r)) rfl h
    (fun db call hcall => funext fun ⟨k, hk⟩ => ?_) fun db db' call hcall hview => ?_
  · refine (redis_step r call rfl rfl).2.2.2 k (fun heq => hcall ?_) fun heq => hcall ?_
    · exact (congrArg stem heq).symm.trans hk
    · exact ((congrArg stem heq).trans (stem_replyKey _)).symm.trans hk
  · have hsame : ∀ k, stem k = stem (q.redisKey r) → db k = db' k := fun k hk =>
      congrFun hview ⟨k, hk⟩
    obtain ⟨hans, hk, hr, hframe⟩ :=
      redis_step r call (hsame _ hcall) (hsame _ (by rwa [stem_replyKey]))
    refine ⟨hans, funext fun ⟨k, hstem⟩ => ?_⟩
    show (redisStep r db call).1 k = (redisStep r db' call).1 k
    by_cases h1 : k = call.2.1.redisKey r
    · rw [h1, hk]
    · by_cases h2 : k = replyKey (call.2.1.redisKey r)
      · rw [h2, hr]
      · rw [hframe k h1 h2, (redis_step r call (Eq.refl (db' _)) rfl).2.2.2 k h1 h2,
          hsame k hstem]

lemma redis_undisturbed_of_refused (r : RedisStore) (httl : r.ttlMs ≤ 0) (h : p ≠ q) :
    Undisturbed (redisStep r) empty p q := by
  intro calls _
  have hempty : ∀ call, (redisStep r empty call).1 = empty := by
    rintro ⟨now, c, op⟩
    have hget : ∀ k, (empty : DB).get now k = none := fun _ => rfl
    cases op with
    | reserve hash => simp [redisStep, reserve, luaReserve, setPX, hget, httl]
    | commit reply => simp [redisStep, commit, luaCommit, setPX, httl]
    | rollback =>
      simp only [redisStep, rollback, luaRollback, hget]
      exact update_eq_self _ (empty : DB)
  refine filter_log_filter (fun db db' : DB => db = empty ∧ db' = empty)
    ?_ ?_ calls _ _ ⟨rfl, rfl⟩
  · rintro db db' call ⟨rfl, rfl⟩ -
    exact ⟨⟨hempty call, hempty call⟩, fun _ => rfl⟩
  · rintro db db' call ⟨rfl, rfl⟩ hdrop
    have hp : call.2.1 = p := by simpa [of] using hdrop
    exact ⟨decide_eq_false (by rw [hp]; exact h), hempty call, rfl⟩

def Caller.mark (c : Caller) : Caller :=
  ⟨c.usid, c.header ++ ":r", c.usid_ne, by simp [String.append_eq_empty_iff]⟩

lemma redisKey_mark (r : RedisStore) (c : Caller) :
    c.mark.redisKey r = replyKey (c.redisKey r) := by
  simp [Caller.redisKey, Caller.key, Caller.mark, makeKey, replyKey, String.append_assoc]

lemma redisKey_iterate (r : RedisStore) (c : Caller) :
    ∀ m, (Caller.mark^[m] c).redisKey r = replyKey^[m] (c.redisKey r)
  | 0 => rfl
  | m + 1 => by
    rw [iterate_succ_apply', iterate_succ_apply', redisKey_mark,
      redisKey_iterate r c m]

lemma length_iterate (k : String) : ∀ m, (replyKey^[m] k).length = k.length + 2 * m
  | 0 => rfl
  | m + 1 => by
    rw [iterate_succ_apply', replyKey, String.length_append, length_iterate k m]
    show _ + 2 = _
    omega

lemma iterate_inj {k : String} {m n : ℕ} (h : replyKey^[m] k = replyKey^[n] k) : m = n := by
  have hlen := congrArg String.length h
  rw [length_iterate, length_iterate] at hlen
  omega

lemma exists_iterate_stripMarks : ∀ cs : List Char,
    ∃ m, String.ofList cs.reverse = replyKey^[m] (.ofList (stripMarks cs).reverse) := by
  intro cs
  fun_induction stripMarks cs with
  | case1 cs ih =>
    obtain ⟨m, hm⟩ := ih
    refine ⟨m + 1, ?_⟩
    rw [iterate_succ_apply', ← hm, replyKey]
    simp [String.ofList_append]
  | case2 cs _ => exact ⟨0, rfl⟩

lemma exists_iterate_stem (k : String) : ∃ m, k = replyKey^[m] (stem k) := by
  obtain ⟨m, hm⟩ := exists_iterate_stripMarks k.toList.reverse
  exact ⟨m, by simpa [stem] using hm⟩

lemma chain_of_stem_eq {k k' : String} (h : stem k = stem k') :
    (∃ n, k' = replyKey^[n] k) ∨ ∃ n, k = replyKey^[n] k' := by
  obtain ⟨m, hm⟩ := exists_iterate_stem k
  obtain ⟨m', hm'⟩ := exists_iterate_stem k'
  rw [← h] at hm'
  rcases le_total m m' with hle | hle
  · left
    refine ⟨m' - m, ?_⟩
    calc k' = replyKey^[m' - m + m] (stem k) := by rw [Nat.sub_add_cancel hle, ← hm']
      _ = replyKey^[m' - m] k := by rw [iterate_add_apply, ← hm]
  · right
    refine ⟨m - m', ?_⟩
    calc k = replyKey^[m - m' + m'] (stem k) := by rw [Nat.sub_add_cancel hle, ← hm]
      _ = replyKey^[m - m'] k' := by rw [iterate_add_apply, ← hm']

/-! ## Where two keys meet -/

section

variable (r : RedisStore) (q : Caller)

def raise : ℕ → List Call
  | 0 => []
  | j + 1 => (0, Caller.mark^[j + 1] q, .reserve zeroHash) :: raise j

def lower : ℕ → List Call
  | 0 => []
  | j + 1 => (0, Caller.mark^[j + 1] q, .rollback) :: lower j

variable {r q} {db : DB} {c : Caller} {k : String}

lemma get_reserve (hpos : 0 < r.ttlMs) :
    (redisStep r db (0, c, .reserve zeroHash)).1.get 0 k =
      if k = c.redisKey r ∧ db.get 0 k = none then some (.hash zeroHash) else db.get 0 k := by
  have hexp : (0 : ℤ) < 0 + r.ttlMs * milli := by
    unfold milli
    omega
  have hkey : r.pfx ++ c.key = c.redisKey r := rfl
  simp only [redisStep, reserve, luaReserve, hkey, setPX, if_neg hpos.not_ge]
  rcases hget : db.get 0 (c.redisKey r) with _ | cur
  · by_cases hk : k = c.redisKey r
    · rw [if_pos ⟨hk, hk ▸ hget⟩, hk]
      exact get_of_entry (set_self ..) hexp
    · rw [if_neg fun h => hk h.1]
      exact get_congr (set_ne _ hk ..) 0
  · rw [if_neg fun h => by rw [← h.1, h.2] at hget; cases hget]
    dsimp only
    split_ifs
    · rfl
    · rcases db.get 0 (replyKey (c.redisKey r)) with _ | v <;> rfl

lemma get_reserve_ne_none (hpos : 0 < r.ttlMs) (h : k = c.redisKey r ∨ db.get 0 k ≠ none) :
    (redisStep r db (0, c, .reserve zeroHash)).1.get 0 k ≠ none := by
  rw [get_reserve hpos]
  split_ifs with hnone
  · simp
  · intro hnone'
    rcases h with h | h
    · exact hnone ⟨h, hnone'⟩
    · exact h hnone'

lemma get_rollback :
    (redisStep r db (0, c, .rollback)).1.get 0 k =
      if k = c.redisKey r ∧ db.get 0 (replyKey k) = none then none else db.get 0 k := by
  have hkey : r.pfx ++ c.key = c.redisKey r := rfl
  simp only [redisStep, rollback, luaRollback, hkey]
  rcases hget : db.get 0 (replyKey (c.redisKey r)) with _ | v
  · by_cases hk : k = c.redisKey r
    · rw [if_pos ⟨hk, hk ▸ hget⟩, hk]
      exact get_of_none (del_self ..)
    · rw [if_neg fun h => hk h.1]
      exact get_congr (del_ne _ hk) 0
  · rw [if_neg fun h => by rw [← h.1, h.2] at hget; cases hget]

lemma reserve_inFlight_iff (hkey : db.get 0 (c.redisKey r) = some (.hash zeroHash)) :
    (redisStep r db (0, c, .reserve zeroHash)).2 = .reserved .inFlight ↔
      db.get 0 (replyKey (c.redisKey r)) = none := by
  have hpfx : r.pfx ++ c.key = c.redisKey r := rfl
  simp only [redisStep, reserve, luaReserve, hpfx, hkey, ne_eq, not_true, if_false]
  rcases db.get 0 (replyKey (c.redisKey r)) with _ | v
  · simp [decode]
  · cases v <;> simp [decode]

lemma mem_between {call : Call} : ∀ {j : ℕ}, call ∈ raise q j ∨ call ∈ lower q j →
    ∃ m, 1 ≤ m ∧ m ≤ j ∧ (call = (0, Caller.mark^[m] q, .reserve zeroHash) ∨
      call = (0, Caller.mark^[m] q, .rollback))
  | 0, h => by simp [raise, lower] at h
  | j + 1, h => by
    rw [raise, lower, mem_cons, mem_cons, or_or_or_comm] at h
    rcases h with h | h
    · exact ⟨j + 1, by omega, le_rfl, h⟩
    · obtain ⟨m, h1, h2, hcall⟩ := mem_between h
      exact ⟨m, h1, by omega, hcall⟩

variable (hpos : 0 < r.ttlMs)

include hpos in
lemma get_final : ∀ {calls : List Call} {db : DB}, (∀ call ∈ calls, k ≠ call.2.1.redisKey r ∧
      (call = (0, call.2.1, .reserve zeroHash) ∨ call = (0, call.2.1, .rollback))) →
    (final (redisStep r) db calls).get 0 k = db.get 0 k
  | [], _, _ => rfl
  | call :: calls, db, h => by
    rw [final_cons, get_final fun c hc => h c (mem_cons_of_mem _ hc)]
    obtain ⟨hne, hcall | hcall⟩ := h call mem_cons_self
    · rw [hcall, get_reserve hpos, if_neg fun h => hne h.1]
    · rw [hcall, get_rollback, if_neg fun h => hne h.1]

include hpos in
lemma get_raise : ∀ {j m : ℕ} {db : DB}, (1 ≤ m ∧ m ≤ j) ∨
      db.get 0 (replyKey^[m] (q.redisKey r)) ≠ none →
    (final (redisStep r) db (raise q j)).get 0 (replyKey^[m] (q.redisKey r)) ≠ none
  | 0, m, db, h => by
    rcases h with ⟨h1, h2⟩ | h
    · omega
    · exact h
  | j + 1, m, db, h => by
    rw [raise, final_cons]
    refine get_raise ?_
    rcases h with ⟨h1, h2⟩ | h
    · rcases Nat.lt_or_ge j m with hlt | hge
      · obtain rfl : m = j + 1 := by omega
        exact .inr (get_reserve_ne_none hpos (.inl (redisKey_iterate r q (j + 1)).symm))
      · exact .inl ⟨h1, hge⟩
    · exact .inr (get_reserve_ne_none hpos (.inr h))

lemma get_lower_eq_none : ∀ {j : ℕ} {db : DB},
    (final (redisStep r) db (lower q j)).get 0 (replyKey (q.redisKey r)) = none ↔
      ∃ m, 1 ≤ m ∧ m ≤ j + 1 ∧ db.get 0 (replyKey^[m] (q.redisKey r)) = none
  | 0, _ => ⟨fun h => ⟨1, le_rfl, le_rfl, h⟩, fun ⟨m, h1, h2, h⟩ => by
      obtain rfl : m = 1 := by omega
      exact h⟩
  | j + 1, db => by
    rw [lower, final_cons, get_lower_eq_none]
    simp only [get_rollback, redisKey_iterate, ← iterate_succ_apply' replyKey]
    constructor
    · rintro ⟨m, h1, h2, h⟩
      split_ifs at h with hm
      · exact ⟨m + 1, by omega, by omega, hm.2⟩
      · exact ⟨m, h1, by omega, h⟩
    · rintro ⟨m, h1, h2, h⟩
      rcases Nat.lt_or_ge (j + 1) m with hlt | hge
      · obtain rfl : m = j + 2 := by omega
        exact ⟨j + 1, by omega, le_rfl, if_pos ⟨rfl, h⟩⟩
      · refine ⟨m, h1, hge, ?_⟩
        rw [h, ite_self]

def chainHistory (p q : Caller) (j : ℕ) : List Call :=
  raise q j ++ (0, p, .reserve zeroHash) :: (lower q j ++ [(0, q, .reserve zeroHash)])

variable {p : Caller}

lemma filter_chainHistory {j : ℕ} (hpq : p ≠ q) (hmark : ∀ m, m ≤ j → Caller.mark^[m] q ≠ p) :
    (chainHistory p q j).filter (fun call => !of p call) =
      raise q j ++ (lower q j ++ [(0, q, .reserve zeroHash)]) := by
  have hkeep : ∀ call, call ∈ raise q j ∨ call ∈ lower q j → (!of p call) = true := by
    intro call hcall
    obtain ⟨m, -, hm, rfl | rfl⟩ := mem_between hcall
    · simpa [of] using hmark m hm
    · simpa [of] using hmark m hm
  have hq : (!of p (0, q, .reserve zeroHash)) = true := by simpa [of] using hpq.symm
  have hp : (!of p (0, p, .reserve zeroHash)) = false := by simp [of]
  simp only [chainHistory, filter_append, filter_cons, hp, hq, filter_nil,
    Bool.false_eq_true, if_false, if_true]
  rw [filter_eq_self.mpr fun call h => hkeep call (.inl h),
    filter_eq_self.mpr fun call h => hkeep call (.inr h)]

lemma time_chainHistory {j : ℕ} : ∀ call ∈ chainHistory p q j, call.1 = 0 := by
  intro call hmem
  simp only [chainHistory, mem_append, mem_cons, not_mem_nil, or_false] at hmem
  rcases hmem with hmem | rfl | hmem | rfl
  · obtain ⟨m, -, -, rfl | rfl⟩ := mem_between (.inl hmem) <;> rfl
  · rfl
  · obtain ⟨m, -, -, rfl | rfl⟩ := mem_between (.inr hmem) <;> rfl
  · rfl

include hpos in
lemma get_between {n j : ℕ} (h : n = 0 ∨ j < n) {calls : List Call} {db : DB}
    (hcalls : ∀ call ∈ calls, call ∈ raise q j ∨ call ∈ lower q j) :
    (final (redisStep r) db calls).get 0 (replyKey^[n] (q.redisKey r)) =
      db.get 0 (replyKey^[n] (q.redisKey r)) := by
  refine get_final hpos fun call hmem => ?_
  obtain ⟨m, h1, h2, hcall⟩ := mem_between (hcalls call hmem)
  have hne : replyKey^[n] (q.redisKey r) ≠ (Caller.mark^[m] q).redisKey r := by
    intro heq
    rw [redisKey_iterate] at heq
    have := iterate_inj heq
    omega
  rcases hcall with rfl | rfl
  · exact ⟨hne, .inl rfl⟩
  · exact ⟨hne, .inr rfl⟩

include hpos in
lemma get_reserve_self {db : DB} (h : db.get 0 (q.redisKey r) = none) :
    (redisStep r db (0, q, .reserve zeroHash)).1.get 0 (q.redisKey r) = some (.hash zeroHash) ∧
      (redisStep r db (0, q, .reserve zeroHash)).1.get 0 (replyKey (q.redisKey r)) =
        db.get 0 (replyKey (q.redisKey r)) := by
  rw [get_reserve hpos, get_reserve hpos, if_pos ⟨rfl, h⟩, if_neg fun h => replyKey_ne _ h.1]
  exact ⟨rfl, rfl⟩

lemma get_empty (k : String) : (empty : DB).get 0 k = none := rfl

include hpos in
lemma chainHistory_answer {j : ℕ} (h : p.redisKey r = replyKey^[j + 1] (q.redisKey r)) :
    (redisStep r (final (redisStep r) empty (chainHistory p q j))
      (0, q, .reserve zeroHash)).2 ≠ .reserved .inFlight := by
  rw [chainHistory, final_append, final_cons, final_append, final_cons, final_nil]
  generalize hdb : final (redisStep r) empty (raise q j) = db
  have hpresent : ∀ m, 1 ≤ m → m ≤ j + 1 → (redisStep r db (0, p, .reserve zeroHash)).1.get 0
      (replyKey^[m] (q.redisKey r)) ≠ none := by
    intro m h1 h2
    refine get_reserve_ne_none hpos ?_
    rcases Nat.lt_or_ge j m with hlt | hge
    · obtain rfl : m = j + 1 := by omega
      exact .inl h.symm
    · exact .inr (hdb ▸ get_raise hpos (.inl ⟨h1, hge⟩))
  have hq : db.get 0 (q.redisKey r) = none := by
    rw [← hdb]
    exact get_between hpos (n := 0) (.inl rfl) fun call hmem => .inl hmem
  have hq' : (redisStep r db (0, p, .reserve zeroHash)).1.get 0 (q.redisKey r) = none := by
    rw [get_reserve hpos, if_neg, hq]
    rintro ⟨heq, -⟩
    have := iterate_inj (m := 0) (heq.trans h)
    omega
  obtain ⟨hres, hrep⟩ := get_reserve_self hpos
    ((get_between hpos (n := 0) (.inl rfl) fun call hmem => .inr hmem).trans hq')
  rw [ne_eq, reserve_inFlight_iff hres, hrep, get_lower_eq_none]
  rintro ⟨m, h1, h2, hm⟩
  exact hpresent m h1 h2 hm

include hpos in
lemma lowered_answer (j : ℕ) :
    (redisStep r (final (redisStep r) empty
      (raise q j ++ (lower q j ++ [(0, q, .reserve zeroHash)]))) (0, q, .reserve zeroHash)).2 =
        .reserved .inFlight := by
  rw [final_append, final_append, final_cons, final_nil]
  generalize hdb : final (redisStep r) empty (raise q j) = db
  have hnone : ∀ n, n = 0 ∨ j < n → db.get 0 (replyKey^[n] (q.redisKey r)) = none := by
    intro n hn
    rw [← hdb, get_between hpos hn fun call hmem => .inl hmem, get_empty]
  have hq : (final (redisStep r) db (lower q j)).get 0 (q.redisKey r) = none :=
    (get_between hpos (n := 0) (.inl rfl) fun call hmem => .inr hmem).trans (hnone 0 (.inl rfl))
  obtain ⟨hres, hrep⟩ := get_reserve_self hpos hq
  rw [reserve_inFlight_iff hres, hrep, get_lower_eq_none]
  exact ⟨j + 1, by omega, le_rfl, hnone (j + 1) (.inr (by omega))⟩

include hpos in
lemma redis_disturbed_same (hpq : p ≠ q) (h : p.redisKey r = q.redisKey r) :
    ¬ Undisturbed (redisStep r) empty p q := by
  intro hiso
  have hlast := hiso.last hpq [(0, p, .reserve zeroHash)] (.reserve zeroHash) (by simp)
  obtain ⟨hres, hrep⟩ := get_reserve_self (q := p) hpos (get_empty _)
  rw [h] at hres hrep
  have hwith := (reserve_inFlight_iff hres).mpr hrep
  have hwithout : (redisStep r empty (0, q, .reserve zeroHash)).2 = .reserved .miss := by
    simp [redisStep, reserve, luaReserve, get_empty, setPX, hpos.not_ge,
      decode]
  have hfilter : [((0 : ℤ), p, Op.reserve zeroHash)].filter (fun call => !of p call) = [] := by
    simp [of]
  rw [hfilter, final_cons, final_nil, final_nil, hwith, hwithout] at hlast
  cases hlast

include hpos in
lemma redis_disturbed (hpq : p ≠ q) {n : ℕ} (h : p.redisKey r = replyKey^[n] (q.redisKey r)) :
    ¬ Undisturbed (redisStep r) empty p q := by
  cases n with
  | zero => exact redis_disturbed_same hpos hpq h
  | succ j =>
    intro hiso
    have hmark : ∀ m, m ≤ j → Caller.mark^[m] q ≠ p := by
      rintro m hm rfl
      rw [redisKey_iterate] at h
      have := iterate_inj h
      omega
    have hlast := hiso.last hpq (chainHistory p q j) (.reserve zeroHash) time_chainHistory
    rw [filter_chainHistory hpq hmark] at hlast
    exact chainHistory_answer hpos h (hlast.trans (lowered_answer hpos j))

end

/-- **Isolation.** Two callers are isolated in memory exactly if their keys differ, and in Redis
exactly if they differ also without the `:r`s at their ends, or Redis stores nothing. -/
theorem isolated_iff (pfx : String) (ttl : ℤ) (p q : Caller) (hpq : p ≠ q) :
    (Isolated memoryStep (newMemoryStore ttl) p q ↔ p.key ≠ q.key) ∧
    (Isolated (redisStep (newRedisStore pfx ttl)) TtlStore.empty p q ↔
      (newRedisStore pfx ttl).ttlMs ≤ 0 ∨
        stem (p.redisKey (newRedisStore pfx ttl)) ≠ stem (q.redisKey (newRedisStore pfx ttl))) := by
  constructor
  · constructor
    · rintro ⟨hiso, -⟩ hkey
      exact memory_disturbed ttl hpq hkey hiso
    · intro hkey
      exact ⟨memory_undisturbed ttl hkey, memory_undisturbed ttl hkey.symm⟩
  · generalize newRedisStore pfx ttl = r
    constructor
    · rintro ⟨hpq', hqp'⟩
      refine or_iff_not_imp_left.mpr fun hpos hstem => ?_
      have hpos : 0 < r.ttlMs := not_le.mp hpos
      rcases chain_of_stem_eq hstem with ⟨n, hn⟩ | ⟨n, hn⟩
      · exact redis_disturbed hpos hpq.symm hn hqp'
      · exact redis_disturbed hpos hpq hn hpq'
    · rintro (httl | hstem)
      · exact ⟨redis_undisturbed_of_refused r httl hpq,
          redis_undisturbed_of_refused r httl hpq.symm⟩
      · exact ⟨redis_undisturbed r hstem, redis_undisturbed r hstem.symm⟩

theorem users_isolated :
    Isolated memoryStep (newMemoryStore 0) ⟨"alice", "ID-1", by decide, by decide⟩
        ⟨"bob", "ID-1", by decide, by decide⟩ ∧
      Isolated (redisStep (newRedisStore "" 0)) TtlStore.empty
        ⟨"alice", "ID-1", by decide, by decide⟩ ⟨"bob", "ID-1", by decide, by decide⟩ := by
  have h := isolated_iff "" 0 ⟨"alice", "ID-1", by decide, by decide⟩
    ⟨"bob", "ID-1", by decide, by decide⟩ (by decide)
  exact ⟨h.1.mpr (by decide), h.2.mpr (.inr (by decide +kernel))⟩

theorem joined_keys_meet :
    (¬ Isolated memoryStep (newMemoryStore 0) ⟨"a", "b|c", by decide, by decide⟩
        ⟨"a|b", "c", by decide, by decide⟩ ∧
      ¬ Isolated (redisStep (newRedisStore "" 0)) TtlStore.empty
        ⟨"a", "b|c", by decide, by decide⟩ ⟨"a|b", "c", by decide, by decide⟩) ∧
    ¬ Isolated (redisStep (newRedisStore "" 0)) TtlStore.empty
        ⟨"u", "k:r", by decide, by decide⟩ ⟨"u", "k", by decide, by decide⟩ := by
  have hpos : 0 < (newRedisStore "" 0).ttlMs := by decide
  refine ⟨⟨fun h => ?_, fun h => ?_⟩, fun h => ?_⟩
  · exact memory_disturbed 0 (by decide) (by decide) h.1
  · exact redis_disturbed (n := 0) hpos (by decide) (by decide) h.1
  · exact redis_disturbed (n := 1) hpos (by decide) (by decide) h.1

end Wtg.Idempotency.Isolation
