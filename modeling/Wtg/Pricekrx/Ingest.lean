import Wtg.Krxshm.Shm
import Wtg.Lib.Runs

/-! # The hub of exchange quotes

`Hub.Ingest` keeps masters, quotes and settlement prices of derivatives by code and brings them into
shared memory: a message that adds a master lays all slots out again and writes every quote it has,
any other writes the one quote or book it carries. -/

namespace Wtg.Pricekrx.Ingest

open Lib Lib.Buffer Lib.KeyedLog Lib.Memory Lib.Ranked Lib.SlotTable
open Krx.Decode Krxshm.Shm

structure MRec (F : Type*) where
  short : Bytes
  bprc : F
  yprc : F

structure Hub (F : Type*) where
  w : Writer F
  masters : GoMap Code (MRec F)
  quotes : GoMap Code (Quote F)
  settle : GoMap Code (FutSettle F)
  laidCount : ℕ

def newHub (F : Type*) : Hub F := ⟨newWriter F, ∅, ∅, ∅, 0⟩

variable {F : Type*} (fl : Floats F)

def buildFutQuote (h : Hub F) (ft : FutTrade F) : Quote F :=
  let q : Quote F :=
    { code := ft.code, shortCode := [], basePrc := fl.zero, openPrc := ft.openPrc, high := ft.high,
      low := ft.low, last := ft.last, prevClose := fl.zero, diff := fl.zero, settle := fl.zero,
      finalSettle := fl.zero, rate := fl.zero, accVol := 0, sign := [], settleCd := [],
      halt := false }
  let q := match h.masters.lookup ft.code with
    | none => q
    | some m =>
      let ref := if fl.le m.yprc fl.zero then m.bprc else m.yprc
      let (diff, rate, sign) := priceDiff fl ft.last ref
      { q with shortCode := m.short, basePrc := m.bprc, prevClose := m.yprc, diff, rate, sign }
  match h.settle.lookup ft.code with
  | none => q
  | some s => { q with settle := s.settle, finalSettle := s.finalSettle, settleCd := s.settleCd }

/-- Negative numbers become 0. -/
def u64 (v : ℤ) : ℕ := if v < 0 then 0 else v.toNat

def futLevel (l : BookLevel F) : Level F := ⟨l.prc, u64 l.vol, u64 l.cnt⟩

def futBook (fb : FutBook F) : Book F :=
  { code := fb.code, askTot := u64 fb.askTot, bidTot := u64 fb.bidTot, askCnt := u64 fb.askCnt,
    bidCnt := u64 fb.bidCnt, expPrc := fb.expPrc, expVol := u64 fb.expVol,
    ask := fb.ask.map futLevel, bid := fb.bid.map futLevel }

def shorts (masters : GoMap Code (MRec F)) : GoMap Code Bytes :=
  ⟨masters.entries.map fun e => ⟨e.1, e.2.short⟩, by
    rw [List.nodupKeys_iff_pairwise, List.pairwise_map]
    exact List.nodupKeys_iff_pairwise.mp masters.nodupKeys⟩

def updateAll (w : Writer F) (es : List (Sigma fun _ : Code => Quote F)) : Writer F :=
  es.foldl (fun w e => if w.has e.1 then (w.update fl e.2).getD w else w) w

abbrev Order (F : Type*) := RangeOrder (Sigma fun _ : Code => Quote F)

def syncFut (order : Order F) (h : Hub F) (code : Code) : Hub F :=
  if h.masters.keys.length ≠ h.laidCount then
    match h.w.layout (shorts h.masters) with
    | none => h
    | some w => { h with
      laidCount := h.masters.keys.length
      w := updateAll fl w (order.list h.quotes.entries) }
  else match h.quotes.lookup code with
    | none => h
    | some q => if h.w.has code then { h with w := (h.w.update fl q).getD h.w } else h

/-- The messages of derivatives; those of bonds have maps of their own and are left out. -/
def ingest (order : Order F) (h : Hub F) (b : Bytes) :
    Hub F × Except DecodeError (Code × Bool) :=
  if b.length < 5 then (h, .ok ([], false))
  else if b.take 5 = trCode "A006F" then
    match decodeA006F fl b with
    | .error e => (h, .error e)
    | .ok m =>
      let mrec : MRec F := ⟨m.shortCode, m.basePrc, m.prevClose⟩
      (syncFut fl order { h with masters := h.masters.insert m.code mrec } m.code,
        .ok (m.code, true))
  else if b.take 5 = trCode "A306F" then
    match decodeA306F fl b with
    | .error e => (h, .error e)
    | .ok ft =>
      let q := buildFutQuote fl h ft
      (syncFut fl order { h with quotes := h.quotes.insert ft.code q } ft.code,
        .ok (ft.code, true))
  else if b.take 5 = trCode "H306F" then
    match decodeH306F fl b with
    | .error e => (h, .error e)
    | .ok s =>
      let h := { h with settle := h.settle.insert s.code s }
      match h.quotes.lookup s.code with
      | none => (h, .ok (s.code, true))
      | some q =>
        let q :=
          { q with settle := s.settle, finalSettle := s.finalSettle, settleCd := s.settleCd }
        (syncFut fl order { h with quotes := h.quotes.insert s.code q } s.code,
          .ok (s.code, true))
  else if b.take 5 = trCode "B606F" then
    match decodeB606F fl b with
    | .error e => (h, .error e)
    | .ok fb =>
      (if h.w.has fb.code then { h with w := (h.w.updateBook fl (futBook fb)).getD h.w } else h,
        .ok (fb.code, true))
  else (h, .ok ([], false))

def run (h : Hub F) (msgs : List (Order F × Bytes)) : Hub F :=
  Runs.final (fun h m => ingest fl m.1 h m.2) h msgs

end Wtg.Pricekrx.Ingest
