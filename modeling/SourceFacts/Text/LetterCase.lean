/-!
# Letter case without regard to context

Characters that differ in case only share a representative. The table lists, as runs, the code
points that are not their own representative.
-/

namespace SourceFacts.Text

/-- A run of code points, `step` apart, and how far their representatives lie from them. -/
structure CaseRun where
  start : Nat
  count : Nat
  step : Nat
  shift : Int
deriving Repr, Inhabited

namespace CaseRun

/-- The runs: the distance from the start of the run before, the count, a dash when the code
points lie two apart, the direction and the distance of the representative. -/
def table : String :=
  "1t.q>w,38.1>lj,b.n>w,o.7>w,14.o->1,1e.3->1,7.8->1,h.n->1,1a.1<3d,1.3->1,6.1<7g,2.1>5u,1.2->1" ++
  ",4.1>5q,1.1>1,2.2>5p,2.1>1,3.1>27,1.1>5m,1.1>5n,1.1>1,2.1>5p,1.1>5r,2.1>5v,1.1>5t,1.1>1,4.1>" ++
  "5v,1.1>5x,2.1>5y,1.3->1,6.1>62,1.1>1,2.1>62,3.1>1,2.1>62,1.1>1,2.2>61,2.2->1,4.1>63,1.1>1,4." ++
  "1>1,8.1>2,1.1>1,2.1>2,1.1>1,2.1>2,1.9->1,j.9->1,j.1>2,1.2->1,4.1<2p,1.1<1k,1.k->1,14.1<3m,2." ++
  "9->1,o.1>8bv,1.1>1,2.1<4j,1.1>8bs,3.1>1,2.1<5f,1.1>1x,1.1>1z,1.5->1,73.1>38,17.2->1,6.1>1,9." ++
  "1>38,7.1>12,2.3>11,4.1>1s,2.2>1r,3.h>w,i.9>w,v.1>1,d.1>8,1.1<u,1.1<p,4.1<f,1.1<m,2.c->1,o.1<" ++
  "1i,1.1<1c,3.1<1o,1.1<1s,2.1>1,2.1<7,1.1>1,3.3<3m,3.g>28,g.w>w,28.h->1,16.r->1,1i.1>f,1.7->1," ++
  "f.1c->1,2p.12>1c,29b.12>5ls,13.1>5ls,6.1>5ls,mj.6<8,1oo.1<4su,1.1<4st,1.1<4sk,1.2<4si,2.1<4s" ++
  "j,1.1<4sc,1.1<4ro,1.1>r7n,8.17<2bk,19.3<2bk,8z.23->1,4b.1<1m,3.1<5vj,2.1c->1,2w.8<8,g.6<8,g." ++
  "8<8,g.8<8,g.6<8,h.4-<8,f.8<8,w.8<8,g.8<8,g.8<8,g.2<8,2.2<22,2.1<9,2.1<5j9,a.4<2e,4.1<9,c.2<8" ++
  ",2.2<2s,e.2<8,2.2<34,2.1<7,c.2<3k,2.2<3i,2.1<9,8a.1<5st,4.1<6gv,1.1<6di,7.1>s,1a.g>g,z.1>1,m" ++
  "r.q>q,1fu.1c>1c,2o.1>1,2.1<8af,1.1<2xy,1.1<89z,3.3->1,6.1<8bg,1.1<8al,1.1<8bj,1.1<8bi,2.1>1," ++
  "3.1>1,9.2<8cf,2.1e->1,2z.2->1,7.1>1,nym.n->1,1s.e->1,4i.7->1,g.v->1,1z.2->1,4.1<r9g,1.5->1,d" ++
  ".1>1,2.1<wmg,3.2->1,6.a->1,k.1<wn8,1.1<wnj,1.1<wnf,1.1<wn5,1.1<wn8,2.1<wlu,1.1<wmi,1.1<wlx,1" ++
  ".1>ps,1.8->1,g.1<1c,1.1<wn7,1.1<raw,1.2->1,9.1>1,6.2->1,v.1>1,or.28<tzk,gj5.q>w,yn.14>14,4w." ++
  "10>14,5c.b>13,c.f>13,g.7>13,8.2>13,1d8.1f>1s,2e8.w>w,gww.w>w,o8w.y>y"

/-- A numeral in base 36. -/
def number (s : List Char) : Nat :=
  s.foldl (fun n c => 36 * n + (if c.isDigit then c.toNat - 48 else c.toNat - 87)) 0

/-- Reads one run, given the start of the run before. -/
def readRun (before : Nat) (s : List Char) : CaseRun :=
  let isDigit (c : Char) : Bool := c.isDigit || c.isLower
  let gap := s.takeWhile isDigit
  let s := (s.dropWhile isDigit).drop 1
  let count := s.takeWhile isDigit
  let s := s.dropWhile isDigit
  let (step, s) := match s with
    | '-' :: rest => (2, rest)
    | _ => (1, s)
  let distance := number (s.drop 1)
  { start := before + number gap, count := number count, step
    shift := if s.head? == some '<' then -(distance : Int) else distance }

/-- The runs of the table. -/
def runs : List CaseRun :=
  ((table.splitOn ",").foldl
    (fun (acc, before) s =>
      let run := readRun before s.toList
      (run :: acc, run.start))
    (([] : List CaseRun), 0)).1.reverse

/-- Whether a code point belongs to the run. -/
def holds (r : CaseRun) (code : Nat) : Bool :=
  r.start ≤ code && (code - r.start) / r.step < r.count && (code - r.start) % r.step == 0

end CaseRun

/-- The representative of a code point. -/
def caseKey (code : Nat) : Nat :=
  match CaseRun.runs.find? (·.holds code) with
  | some r => ((code : Int) + r.shift).toNat
  | none => code

/-- The code points that differ from the given one in case only, itself included. -/
def caseOrbit (code : Nat) : List Nat :=
  let key := caseKey code
  key :: (CaseRun.runs.flatMap fun r =>
    let other := (key : Int) - r.shift
    if 0 ≤ other && r.holds other.toNat then [other.toNat] else [])

end SourceFacts.Text
