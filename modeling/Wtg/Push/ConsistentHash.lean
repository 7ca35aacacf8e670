import Mathlib.Data.List.Sort
import Wtg.Lib.Clockwise
import Wtg.Lib.Numeral
import Wtg.Lib.Search

/-! # Consistent hashing

The ring of `pkg/push/hashring.go` on which `MultiClient` (`multiclient.go`) places its endpoints:
each of them stands on the ring at the hashes of a number of keys, and a user belongs to the
endpoint whose hash comes next, clockwise from the user's own. -/

namespace Wtg.Push.ConsistentHash

open Lib Lib.Search Lib.Clockwise String List

structure RingNode where
  hash : UInt32
  instanceIx : ℕ

structure HashRing where
  nodes : List RingNode
  endpoints : List String

/-- `sort.Slice` by the hash; nothing is said on the order of nodes with the same hash. -/
structure Sorter where
  sort : List RingNode → List RingNode
  perm : ∀ l, (sort l).Perm l
  sorted : ∀ l, (sort l).Pairwise fun a b => a.hash.toNat ≤ b.hash.toNat

def vnodeKey (v : ℕ) (ep : String) : String := toString v ++ "#" ++ ep

def vnodeCount (vnodes : ℤ) : ℕ := if vnodes ≤ 0 then 100 else vnodes.toNat

/-! ## The ring -/

section

variable (S : Sorter) (sha1Hash fnvHash : String → UInt32)

def vnodes (endpoints : List String) (count : ℕ) : List RingNode :=
  endpoints.zipIdx.flatMap fun (ep, i) =>
    (List.range count).map fun v => ⟨sha1Hash (vnodeKey v ep), i⟩

def newRing (endpoints : List String) (count : ℤ) : Option HashRing :=
  if endpoints = [] then none
  else some ⟨S.sort (vnodes sha1Hash endpoints (vnodeCount count)), endpoints⟩

def lookup (r : Option HashRing) (user : String) : ℕ :=
  match r with
  | none => 0
  | some r =>
    if r.nodes = [] then 0
    else
      let h := sha1Hash user
      let i := search r.nodes.length fun i => r.nodes[i]?.any fun n => h ≤ n.hash
      let i := if i = r.nodes.length then 0 else i
      (r.nodes[i]?.map RingNode.instanceIx).getD 0

def userIndex (user : String) (n : ℕ) : ℕ := if n = 0 then 0 else (fnvHash user).toNat % n

def indexForUser (ring : Option HashRing) (clients : ℕ) (user : String) : ℕ :=
  match ring with
  | some r => lookup sha1Hash (some r) user
  | none => userIndex fnvHash user clients

def endpointOf (endpoints : List String) (count : ℤ) (user : String) : Option String :=
  endpoints[lookup sha1Hash (newRing S sha1Hash endpoints count) user]?

end

/-! ## What a lookup finds -/

section

variable {S : Sorter} {sha1Hash : String → UInt32}

def positions (nodes : List RingNode) : Set ℕ := {p | ∃ n ∈ nodes, n.hash.toNat = p}

variable {nodes : List RingNode}

lemma any_getElem? {h : UInt32} {i : ℕ} {n : RingNode} (hi : nodes[i]? = some n) :
    (nodes[i]?.any fun n => h ≤ n.hash) = true ↔
      h.toNat ≤ n.hash.toNat := by
  rw [hi]
  simp [UInt32.le_iff_toNat_le]

lemma upward_test (h : UInt32) (hsorted : nodes.Pairwise fun a b => a.hash.toNat ≤ b.hash.toNat) :
    Upward nodes.length fun i => nodes[i]?.any fun n => h ≤ n.hash := by
  intro i j hij hj hi
  rcases eq_or_lt_of_le hij with rfl | hlt
  · exact hi
  · have hi' : i < nodes.length := by omega
    rw [any_getElem? (getElem?_eq_getElem hi')] at hi
    rw [any_getElem? (getElem?_eq_getElem hj)]
    exact le_trans hi (pairwise_iff_getElem.mp hsorted i j hi' hj hlt)

lemma mem_positions {p : ℕ} (hp : p ∈ positions nodes) :
    ∃ k, ∃ hk : k < nodes.length, nodes[k].hash.toNat = p := by
  obtain ⟨n, hn, rfl⟩ := hp
  obtain ⟨k, hk, rfl⟩ := mem_iff_getElem.mp hn
  exact ⟨k, hk, rfl⟩

variable (sha1Hash) in
lemma lookup_spec {r : HashRing} (hne : r.nodes ≠ [])
    (hsorted : r.nodes.Pairwise fun a b => a.hash.toNat ≤ b.hash.toNat) (user : String) :
    ∃ n ∈ r.nodes, lookup sha1Hash (some r) user = n.instanceIx ∧
      IsNext (positions r.nodes) (sha1Hash user).toNat n.hash.toNat := by
  have hle : ∀ i j (hi : i < r.nodes.length) (hj : j < r.nodes.length), i ≤ j →
      r.nodes[i].hash.toNat ≤ r.nodes[j].hash.toNat := by
    intro i j hi hj hij
    rcases Nat.eq_or_lt_of_le hij with rfl | hlt
    · exact le_rfl
    · exact pairwise_iff_getElem.mp hsorted i j hi hj hlt
  obtain ⟨hbound, hbelow, habove⟩ := search_spec (upward_test (sha1Hash user) hsorted)
  simp only [lookup, if_neg hne]
  generalize search r.nodes.length _ = i at hbound hbelow habove
  have hlow : ∀ k (hk : k < r.nodes.length), k < i →
      r.nodes[k].hash.toNat < (sha1Hash user).toNat := by
    intro k hk hki
    by_contra hnot
    have htest := (any_getElem? (getElem?_eq_getElem hk)).mpr (not_lt.mp hnot)
    rw [hbelow k hki] at htest
    exact absurd htest (by simp)
  by_cases hend : i = r.nodes.length
  · have hpos : 0 < r.nodes.length := length_pos_of_ne_nil hne
    refine ⟨r.nodes[0], getElem_mem hpos, ?_, isNext_of_wrap ⟨_, getElem_mem hpos, rfl⟩
      (fun q hq => ?_) fun q hq => ?_⟩
    · rw [if_pos hend, getElem?_eq_getElem hpos]
      rfl
    · obtain ⟨k, hk, rfl⟩ := mem_positions hq
      exact hlow k hk (by omega)
    · obtain ⟨k, hk, rfl⟩ := mem_positions hq
      exact hle 0 k hpos hk (Nat.zero_le k)
  · have hi : i < r.nodes.length := by omega
    have hreached : (sha1Hash user).toNat ≤ r.nodes[i].hash.toNat :=
      (any_getElem? (getElem?_eq_getElem hi)).mp (habove i le_rfl hi)
    refine ⟨r.nodes[i], getElem_mem hi, ?_, isNext_of_le ⟨_, getElem_mem hi, rfl⟩
      hreached fun q hq hqh => ?_⟩
    · rw [if_neg hend, getElem?_eq_getElem hi]
      rfl
    · obtain ⟨k, hk, rfl⟩ := mem_positions hq
      by_contra hnot
      have hki : k < i := by
        by_contra hik
        exact hnot (hle i k hi hk (not_lt.mp hik))
      exact absurd (hlow k hk hki) (not_lt.mpr hqh)

variable (sha1Hash) in
def points (endpoints : List String) (count : ℕ) : Set ℕ :=
  {p | ∃ ep ∈ endpoints, ∃ v < count, (sha1Hash (vnodeKey v ep)).toNat = p}

variable (sha1Hash) in
def NoCollision (endpoints : List String) (count : ℕ) : Prop :=
  Set.InjOn sha1Hash {key | ∃ ep ∈ endpoints, ∃ v < count, vnodeKey v ep = key}

variable {count : ℕ} {endpoints more : List String}

lemma points_mono (h : endpoints ⊆ more) :
    points sha1Hash endpoints count ⊆ points sha1Hash more count := by
  rintro p ⟨ep, hep, hp⟩
  exact ⟨ep, h hep, hp⟩

lemma NoCollision.mono (hinj : NoCollision sha1Hash more count)
    (h : endpoints ⊆ more) : NoCollision sha1Hash endpoints count :=
  Set.InjOn.mono (by rintro key ⟨ep, hep, hkey⟩; exact ⟨ep, h hep, hkey⟩) hinj

lemma vnodeCount_pos (count : ℤ) : 0 < vnodeCount count := by
  unfold vnodeCount
  split_ifs <;> omega

lemma vnodeKey_inj {v w : ℕ} {ep ep' : String} (h : vnodeKey v ep = vnodeKey w ep') :
    ep = ep' := by
  have hnumber : ∀ n : ℕ, '#' ∉ (toString n).toList := by
    intro n hmem
    rw [Nat.toString_eq_ofList_toDigits, toList_ofList] at hmem
    exact absurd (Nat.isDigit_of_mem_toDigits (by omega) le_rfl hmem) (by decide)
  have hlist := congrArg toList h
  simp only [vnodeKey, toList_append] at hlist
  have hparts := Numeral.sep_append_inj (hnumber v) (hnumber w)
    (by simpa using hlist : _ ++ '#' :: ep.toList = _ ++ '#' :: ep'.toList)
  exact toList_inj.mp hparts.2

variable {endpoints : List String}

lemma mem_vnodes {n : RingNode} :
    n ∈ vnodes sha1Hash endpoints count ↔
      ∃ ep v, endpoints[n.instanceIx]? = some ep ∧ v < count ∧
        n.hash = sha1Hash (vnodeKey v ep) := by
  unfold vnodes
  rw [mem_flatMap]
  constructor
  · rintro ⟨⟨ep, i⟩, hmem, hn⟩
    obtain ⟨v, hv, rfl⟩ := mem_map.mp hn
    exact ⟨ep, v, mem_zipIdx_iff_getElem?.mp hmem, mem_range.mp hv, rfl⟩
  · rintro ⟨ep, v, hep, hv, hhash⟩
    refine ⟨(ep, n.instanceIx), mem_zipIdx_iff_getElem?.mpr hep, mem_map.mpr
      ⟨v, mem_range.mpr hv, ?_⟩⟩
    rw [← hhash]

lemma positions_vnodes (endpoints : List String) (count : ℕ) :
    positions (S.sort (vnodes sha1Hash endpoints count)) = points sha1Hash endpoints count := by
  ext p
  constructor
  · rintro ⟨n, hn, rfl⟩
    obtain ⟨ep, v, hep, hv, hhash⟩ := mem_vnodes.mp ((S.perm _).mem_iff.mp hn)
    exact ⟨ep, mem_of_getElem? hep, v, hv, by rw [hhash]⟩
  · rintro ⟨ep, hep, v, hv, rfl⟩
    obtain ⟨i, hi, rfl⟩ := mem_iff_getElem.mp hep
    exact ⟨⟨sha1Hash (vnodeKey v endpoints[i]), i⟩, (S.perm _).mem_iff.mpr
      (mem_vnodes.mpr ⟨_, v, getElem?_eq_getElem hi, hv, rfl⟩), rfl⟩

variable (S sha1Hash) in
lemma endpointOf_spec (hne : endpoints ≠ []) (count : ℤ) (user : String) :
    ∃ ep ∈ endpoints, ∃ v < vnodeCount count,
      endpointOf S sha1Hash endpoints count user = some ep ∧
        IsNext (points sha1Hash endpoints (vnodeCount count)) (sha1Hash user).toNat
          (sha1Hash (vnodeKey v ep)).toNat := by
  obtain ⟨first, hfirst⟩ := exists_mem_of_ne_nil endpoints hne
  obtain ⟨i, hi, rfl⟩ := mem_iff_getElem.mp hfirst
  have hnodes : S.sort (vnodes sha1Hash endpoints (vnodeCount count)) ≠ [] := by
    have hmem : ⟨sha1Hash (vnodeKey 0 endpoints[i]), i⟩ ∈
        vnodes sha1Hash endpoints (vnodeCount count) :=
      mem_vnodes.mpr ⟨_, 0, getElem?_eq_getElem hi, vnodeCount_pos count, rfl⟩
    exact ne_nil_of_mem ((S.perm _).mem_iff.mpr hmem)
  obtain ⟨n, hn, hlookup, hnext⟩ := lookup_spec sha1Hash
    (r := ⟨S.sort (vnodes sha1Hash endpoints (vnodeCount count)), endpoints⟩) hnodes
    (S.sorted _) user
  obtain ⟨ep, v, hep, hv, hhash⟩ := mem_vnodes.mp ((S.perm _).mem_iff.mp hn)
  refine ⟨ep, mem_of_getElem? hep, v, hv, ?_, ?_⟩
  · rw [endpointOf, newRing, if_neg hne, hlookup, hep]
  · rwa [positions_vnodes, hhash] at hnext

lemma endpointOf_eq {count : ℤ} {user ep : String} {v : ℕ}
    (hinj : NoCollision sha1Hash endpoints (vnodeCount count)) (hep : ep ∈ endpoints)
    (hv : v < vnodeCount count)
    (hnext : IsNext (points sha1Hash endpoints (vnodeCount count)) (sha1Hash user).toNat
      (sha1Hash (vnodeKey v ep)).toNat) :
    endpointOf S sha1Hash endpoints count user = some ep := by
  obtain ⟨ep', hep', w, hw, hchosen, hnext'⟩ :=
    endpointOf_spec S sha1Hash (ne_nil_of_mem hep) count user
  have hhash : sha1Hash (vnodeKey w ep') = sha1Hash (vnodeKey v ep) :=
    UInt32.toNat_inj.mp (hnext'.unique hnext)
  have hkey := hinj ⟨ep', hep', w, hw, rfl⟩ ⟨ep, hep, v, hv, rfl⟩ hhash
  rw [hchosen, vnodeKey_inj hkey]

lemma endpointOf_of_subset {count : ℤ} {user ep : String}
    (hinj : NoCollision sha1Hash endpoints (vnodeCount count)) (hsub : endpoints ⊆ more)
    (hchosen : endpointOf S sha1Hash more count user = some ep) (hep : ep ∈ endpoints) :
    endpointOf S sha1Hash endpoints count user = some ep := by
  obtain ⟨ep', -, v, hv, hchosen', hnext⟩ :=
    endpointOf_spec S sha1Hash (ne_nil_of_mem (hsub hep)) count user
  obtain rfl : ep = ep' := Option.some.inj (hchosen.symm.trans hchosen')
  exact endpointOf_eq hinj hep hv (hnext.mono (points_mono hsub) ⟨ep, hep, v, hv, rfl⟩)

/-- **Consistent hashing moves only what it must**: the order does not matter, an added endpoint
takes users only to itself, a removed one gives up only its own. -/
theorem consistent_hash (S : Sorter) (endpoints : List String) (count : ℤ)
    (hinj : NoCollision sha1Hash endpoints (vnodeCount count)) :
    (∀ other, other.Perm endpoints → ∀ user,
      endpointOf S sha1Hash other count user = endpointOf S sha1Hash endpoints count user) ∧
    (∀ e other, other.Perm (e :: endpoints) →
      NoCollision sha1Hash (e :: endpoints) (vnodeCount count) → ∀ user,
      endpointOf S sha1Hash other count user = endpointOf S sha1Hash endpoints count user ∨
        endpointOf S sha1Hash other count user = some e) ∧
    ∀ e, ∀ user, endpointOf S sha1Hash endpoints count user ≠ some e →
      endpointOf S sha1Hash (endpoints.erase e) count user =
        endpointOf S sha1Hash endpoints count user := by
  refine ⟨fun other hperm user => ?_, fun e other hperm hinj' user => ?_, fun e user hother => ?_⟩
  · rcases eq_or_ne other [] with rfl | hne
    · rw [nil_perm.mp hperm]
    · obtain ⟨ep, hep, -, -, hchosen, -⟩ :=
        endpointOf_spec S sha1Hash hne count user
      rw [hchosen, endpointOf_of_subset hinj hperm.symm.subset hchosen (hperm.subset hep)]
  · have hne : other ≠ [] := by
      rintro rfl
      exact absurd (nil_perm.mp hperm) (by simp)
    obtain ⟨ep, hep, -, -, hchosen, -⟩ :=
      endpointOf_spec S sha1Hash hne count user
    rcases mem_cons.mp (hperm.subset hep) with rfl | hold
    · exact .inr hchosen
    · left
      rw [hchosen, endpointOf_of_subset hinj
        (fun x hx => hperm.symm.subset (mem_cons_of_mem e hx)) hchosen hold]
  · rcases eq_or_ne endpoints [] with rfl | hne
    · rfl
    · obtain ⟨ep, hep, -, -, hchosen, -⟩ :=
        endpointOf_spec S sha1Hash hne count user
      have hleft : ep ∈ endpoints.erase e := by
        refine (mem_erase_of_ne ?_).mpr hep
        rintro rfl
        exact hother hchosen
      rw [hchosen]
      exact endpointOf_of_subset (hinj.mono erase_subset) erase_subset hchosen hleft

lemma indexForUser_lt (fnvHash : String → UInt32) (hne : endpoints ≠ []) (count : ℤ)
    (user : String) :
    indexForUser sha1Hash fnvHash (newRing S sha1Hash endpoints count) endpoints.length user <
        endpoints.length ∧
      indexForUser sha1Hash fnvHash none endpoints.length user < endpoints.length := by
  have hpos : 0 < endpoints.length := List.length_pos_of_ne_nil hne
  refine ⟨?_, ?_⟩
  · obtain ⟨ep, -, -, -, hchosen, -⟩ := endpointOf_spec S sha1Hash hne count user
    rw [endpointOf] at hchosen
    obtain ⟨hlt, -⟩ := List.getElem?_eq_some_iff.mp hchosen
    rw [newRing, if_neg hne] at hlt ⊢
    exact hlt
  · rw [indexForUser, userIndex, if_neg (by omega)]
    exact Nat.mod_lt _ hpos

end

def insertionSorter : Sorter where
  sort := List.insertionSort fun a b => a.hash.toNat ≤ b.hash.toNat
  perm := List.perm_insertionSort _
  sorted l := by
    have : Std.Total fun a b : RingNode => a.hash.toNat ≤ b.hash.toNat :=
      ⟨fun a b => le_total a.hash.toNat b.hash.toNat⟩
    have : IsTrans RingNode fun a b => a.hash.toNat ≤ b.hash.toNat :=
      ⟨fun _ _ _ => le_trans⟩
    exact List.pairwise_insertionSort _ l

def smallHash (s : String) : UInt32 := if s = "0#a" then 10 else if s = "0#b" then 20 else 15

lemma noCollision_smallHash : NoCollision smallHash ["a", "b"] 1 := by
  have hkey : ∀ key, (∃ ep ∈ ["a", "b"], ∃ v < 1, vnodeKey v ep = key) →
      key = "0#a" ∨ key = "0#b" := by
    rintro key ⟨ep, hep, v, hv, rfl⟩
    obtain rfl : v = 0 := by omega
    rcases mem_cons.mp hep with rfl | hep
    · exact .inl (by decide)
    · obtain rfl := mem_singleton.mp hep
      exact .inr (by decide)
  intro x hx y hy hxy
  rcases hkey x hx with rfl | rfl <;> rcases hkey y hy with rfl | rfl
  · rfl
  · exact absurd hxy (by decide)
  · exact absurd hxy (by decide)
  · rfl

theorem consistent_hash_two :
    endpointOf insertionSorter smallHash ["b", "a"] 1 "u" =
        endpointOf insertionSorter smallHash ["a", "b"] 1 "u" ∧
      endpointOf insertionSorter smallHash ["a", "b"] 1 "u" = some "b" :=
  ⟨(consistent_hash insertionSorter ["a", "b"] 1 noCollision_smallHash).1 ["b", "a"]
    (List.Perm.swap "a" "b" []) "u", by decide +kernel⟩

end Wtg.Push.ConsistentHash
