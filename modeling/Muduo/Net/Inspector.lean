import Muduo.Lib.Loop
import Muduo.Lib.Window

/-!
The function split of Inspector.cc, which cuts the path of a request at its slashes. The scan
keeps the place behind the last slash and the place of the next one. What stands between them is
a segment unless it is empty, and what stands behind the last slash is treated apart.
-/
namespace Muduo
open Lib
namespace Inspector
variable {segments : List (List Char)}

def find (str : List Char) (pos : Nat) : Option Nat := ((str.drop pos).idxOf? '/').map (pos + ·)

/-- str.substr(pos, len) throws when pos is past the end. -/
def substr (str : List Char) (pos len : Nat) : Checked (List Char) := do
  assertThat (pos ≤ str.length) "std::out_of_range"
  pure ((str.drop pos).take len)

structure Scan where
  result : List (List Char)
  start : Nat
  pos : Option Nat

def splitTurn (str : List Char) (s : Scan) : Checked (Scan × Bool) :=
  match s.pos with
  | none => pure (s, false)
  | some pos => do
    let result ← if pos > s.start then do
        let piece ← substr str s.start (pos - s.start)
        pure (s.result ++ [piece])
      else pure s.result
    pure (⟨result, pos + 1, find str (pos + 1)⟩, true)

def split (str : List Char) : Checked (List (List Char)) := do
  match ← whileLoop (splitTurn str) (str.length + 1) ⟨[], 0, find str 0⟩ with
  | none => .error "more slashes"
  | some s =>
    if s.start < str.length then do
      let piece ← substr str s.start (str.length - s.start)
      pure (s.result ++ [piece])
    else pure s.result

/-! ### The scan -/

section
variable {str : List Char} {start p : Nat}

def Flat (str : List Char) (start stop : Nat) : Prop :=
  ∀ k, start ≤ k → k < stop → str[k]? ≠ some '/'

theorem find_none (none_ : find str start = none) : Flat str start str.length := by
  intro k above below slash
  have absent : '/' ∉ str.drop start := by
    simpa [find, List.idxOf?_eq_none_iff] using none_
  apply absent
  apply List.mem_of_getElem? (i := k - start)
  simpa [List.getElem?_drop, Nat.add_sub_cancel' above] using slash

structure Found (str : List Char) (start p : Nat) : Prop where
  above : start ≤ p
  below : p < str.length
  slash : str[p]? = some '/'
  flat : Flat str start p

theorem find_some (found : find str start = some p) : Found str start p := by
  obtain ⟨i, first, rfl⟩ := Option.map_eq_some_iff.mp found
  obtain ⟨bound, slash, before⟩ := List.idxOf?_eq_some_iff.mp first
  simp only [List.getElem_drop, List.length_drop] at bound slash before
  constructor
  · omega
  · omega
  · simp only [List.getElem?_eq_getElem (by omega : start + i < str.length), slash]
  · intro k above below here
    have inside : k < str.length := by omega
    apply before (k - start) (by omega)
    simp only [Nat.add_sub_cancel' above]
    simpa [List.getElem?_eq_getElem inside] using here

def piece (str : List Char) (start stop : Nat) : List (List Char) :=
  if start < stop then [window str start stop] else []

theorem substr_eq (le : start ≤ p) (inside : p ≤ str.length) :
    substr str start (p - start) = .ok (window str start p) := by
  have cut : (str.drop start).take (p - start) = window str start p := by
    simp only [window, List.take_drop, Nat.add_sub_cancel' le]
  simp only [substr, assertThat_of_true (Nat.le_trans le inside), ok_bind, pure_eq_ok, cut]

theorem splitTurn_none (result : List (List Char)) (last : find str start = none) :
    splitTurn str ⟨result, start, find str start⟩ = .ok (⟨result, start, none⟩, false) := by
  simp only [splitTurn, last, pure_eq_ok]

theorem splitTurn_some (result : List (List Char)) (found : find str start = some p) :
    splitTurn str ⟨result, start, find str start⟩ =
      .ok (⟨result ++ piece str start p, p + 1, find str (p + 1)⟩, true) := by
  have below := (find_some found).below
  unfold splitTurn piece
  simp only [found]
  split
  · next more => simp [substr_eq (Nat.le_of_lt more) (Nat.le_of_lt below)]
  · simp

theorem scan_rule {inv : Nat → List (List Char) → Prop}
    (step : ∀ start p result, inv start result → Found str start p →
      inv (p + 1) (result ++ piece str start p))
    (fuel start : Nat) (result : List (List Char)) (now : inv start result)
    (inside : start ≤ str.length) (enough : str.length - start < fuel) :
    ∃ start' result', whileLoop (splitTurn str) fuel ⟨result, start, find str start⟩ =
        .ok (some ⟨result', start', none⟩) ∧ inv start' result' ∧ find str start' = none := by
  induction fuel generalizing start result with
  | zero => exact absurd enough (Nat.not_lt_zero _)
  | succ fuel ih =>
    cases next : find str start with
    | none =>
      have turn := splitTurn_none result next
      simp only [next] at turn
      exact ⟨start, result, whileLoop_stop (Nat.succ_pos _) turn, now, next⟩
    | some p =>
      have found := find_some next
      have turn := splitTurn_some result next
      simp only [next] at turn
      have below := found.below
      have above := found.above
      simp only [whileLoop_again (Nat.succ_pos _) turn]
      exact ih (p + 1) _ (step start p result now found) (by omega) (by omega)

theorem split_rule (str : List Char) (inv : Nat → List (List Char) → Prop) (first : inv 0 [])
    (step : ∀ start p result, inv start result → Found str start p →
      inv (p + 1) (result ++ piece str start p)) :
    ∃ start result, split str = .ok (result ++ piece str start str.length) ∧ inv start result ∧
      Flat str start str.length := by
  obtain ⟨start, result, ran, holds, last⟩ :=
    scan_rule step (str.length + 1) 0 [] first (Nat.zero_le _) (by omega)
  refine ⟨start, result, ?_, holds, find_none last⟩
  simp only [split, ran, ok_bind, piece]
  split
  · next more => simp [substr_eq (Nat.le_of_lt more) (Nat.le_refl _)]
  · simp

end

/-! ### Maximal runs -/

/-- A longest stretch, from `i` to before `j`, that has characters but no slash. -/
structure IsRun (str : List Char) (i j : Nat) : Prop where
  proper : i < j
  inside : j ≤ str.length
  flat : Flat str i j
  left : i = 0 ∨ str[i - 1]? = some '/'
  right : j = str.length ∨ str[j]? = some '/'

section
variable {str : List Char} {start stop i j : Nat}

theorem isRun_iff (left : start = 0 ∨ str[start - 1]? = some '/') (inside : stop ≤ str.length)
    (flat : Flat str start stop) (right : stop = str.length ∨ str[stop]? = some '/') :
    IsRun str i j ∧ start ≤ j ∧ j ≤ stop ↔ start < stop ∧ i = start ∧ j = stop := by
  constructor
  · intro ⟨run, above, below⟩
    have proper := run.proper
    have from_start : start ≤ i := by
      by_contra before
      rcases left with zero | slash
      · omega
      · exact run.flat (start - 1) (by omega) (by omega) slash
    have no_more : i = start := by
      by_contra other
      rcases run.left with zero | slash
      · omega
      · exact flat (i - 1) (by omega) (by omega) slash
    have to_stop : j = stop := by
      by_contra other
      rcases run.right with last | slash
      · omega
      · exact flat j above (by omega) slash
    omega
  · intro ⟨proper, same, same'⟩
    subst same same'
    exact ⟨⟨proper, inside, flat, left, right⟩, Nat.le_of_lt proper, Nat.le_refl _⟩

structure Scanned (str : List Char) (start : Nat) (runs : List (Nat × Nat)) : Prop where
  inside : start ≤ str.length
  left : start = 0 ∨ str[start - 1]? = some '/'
  runs_iff : ∀ i j, (i, j) ∈ runs ↔ IsRun str i j ∧ j < start
  ordered : runs.Pairwise (fun a b => a.2 < b.1)

def runBetween (start stop : Nat) : List (Nat × Nat) :=
  if start < stop then [(start, stop)] else []

theorem mem_runBetween : (i, j) ∈ runBetween start stop ↔ start < stop ∧ i = start ∧ j = stop := by
  unfold runBetween
  split
  · next more => simp [more]
  · next none => simp [none]

theorem piece_eq (str : List Char) (start stop : Nat) :
    piece str start stop = (runBetween start stop).map (fun r => window str r.1 r.2) := by
  unfold piece runBetween
  split
  · rfl
  · rfl

theorem Scanned.more {runs : List (Nat × Nat)} (scanned : Scanned str start runs)
    (inside : stop ≤ str.length) (above : start ≤ stop) (flat : Flat str start stop)
    (right : stop = str.length ∨ str[stop]? = some '/') :
    (∀ i j, (i, j) ∈ runs ++ runBetween start stop ↔ IsRun str i j ∧ j ≤ stop) ∧
      (runs ++ runBetween start stop).Pairwise (fun a b => a.2 < b.1) := by
  constructor
  · intro i j
    have run := isRun_iff (i := i) (j := j) scanned.left inside flat right
    simp only [List.mem_append, mem_runBetween, scanned.runs_iff, ← run]
    constructor
    · rintro (⟨old, before⟩ | ⟨new, -, within⟩)
      · exact ⟨old, by omega⟩
      · exact ⟨new, within⟩
    · intro ⟨is_run, within⟩
      rcases Nat.lt_or_ge j start with before | behind
      · exact Or.inl ⟨is_run, before⟩
      · exact Or.inr ⟨is_run, behind, within⟩
  · apply List.pairwise_append.mpr
    refine ⟨scanned.ordered, ?_, ?_⟩
    · unfold runBetween
      split
      · exact List.pairwise_singleton _ _
      · exact List.Pairwise.nil
    · intro a old b new
      have before := ((scanned.runs_iff a.1 a.2).mp old).2
      have behind := (mem_runBetween.mp new).2.1
      omega

def Cut (str : List Char) (start : Nat) (result : List (List Char)) : Prop :=
  ∃ runs, Scanned str start runs ∧ result = runs.map (fun r => window str r.1 r.2)

theorem cut_start (str : List Char) : Cut str 0 [] := by
  refine ⟨[], ⟨Nat.zero_le _, Or.inl rfl, ?_, List.Pairwise.nil⟩, rfl⟩
  intro i j
  simp

theorem Cut.step {p : Nat} {result : List (List Char)} (cut : Cut str start result)
    (found : Found str start p) : Cut str (p + 1) (result ++ piece str start p) := by
  obtain ⟨runs, scanned, rfl⟩ := cut
  obtain ⟨runs_iff, ordered⟩ := scanned.more (Nat.le_of_lt found.below) found.above found.flat
    (Or.inr found.slash)
  refine ⟨runs ++ runBetween start p, ⟨found.below, Or.inr ?_, ?_, ordered⟩, ?_⟩
  · simpa using found.slash
  · intro i j
    simp only [runs_iff, Nat.lt_succ_iff]
  · simp only [piece_eq, List.map_append]

end

/-! ### Joined segments -/

/-- A text in which the segments stand apart, with slashes between, before and behind them. -/
inductive Joined : List (List Char) → List Char → Prop where
  | nil : Joined [] []
  | slash {segments text} (rest : Joined segments text) : Joined segments ('/' :: text)
  | last {segment} (some : segment ≠ []) (flat : '/' ∉ segment) : Joined [segment] segment
  | cons {segments text segment} (some : segment ≠ []) (flat : '/' ∉ segment)
      (rest : Joined segments text) : Joined (segment :: segments) (segment ++ '/' :: text)

theorem joined_intercalate (proper : ∀ s ∈ segments, s ≠ [] ∧ '/' ∉ s) :
    Joined segments (['/'].intercalate segments) := by
  induction segments with
  | nil => exact .nil
  | cons s rest ih =>
    have here := proper s (by simp)
    cases rest with
    | nil =>
      have same : ['/'].intercalate [s] = s := by simp [List.intercalate]
      simp only [same]
      exact .last here.1 here.2
    | cons r rest =>
      have same : ['/'].intercalate (s :: r :: rest) = s ++ '/' :: ['/'].intercalate (r :: rest) := by
        simp [List.intercalate]
      simp only [same]
      apply Joined.cons here.1 here.2
      apply ih
      intro t member
      exact proper t (List.mem_cons_of_mem _ member)

section
variable {segments : List (List Char)} {run text more other : List Char}

theorem front_unique (flat : '/' ∉ run) (flat' : '/' ∉ more)
    (same : run ++ '/' :: text = more ++ '/' :: other) : run = more ∧ text = other := by
  induction run generalizing more with
  | nil =>
    cases more with
    | nil => simpa using same
    | cons c more =>
      simp only [List.nil_append, List.cons_append, List.cons.injEq] at same
      exact absurd (by simp [← same.1]) flat'
  | cons c run ih =>
    cases more with
    | nil =>
      simp only [List.nil_append, List.cons_append, List.cons.injEq] at same
      exact absurd (by simp [same.1]) flat
    | cons d more =>
      simp only [List.cons_append, List.cons.injEq] at same
      obtain ⟨tail, rest⟩ := ih (fun slash => flat (by simp [slash]))
        (fun slash => flat' (by simp [slash])) same.2
      exact ⟨by simp [same.1, tail], rest⟩

theorem Joined.cut (flat : '/' ∉ run) (joined : Joined segments (run ++ '/' :: text)) :
    ∃ rest, segments = (if run = [] then [] else [run]) ++ rest ∧ Joined rest text := by
  generalize whole : run ++ '/' :: text = all at joined
  cases joined with
  | nil => simp at whole
  | @slash segments tail rest =>
    have front : run ++ '/' :: text = [] ++ '/' :: tail := whole
    obtain ⟨empty, same⟩ := front_unique flat (by simp) front
    subst same
    exact ⟨segments, by simp [empty], rest⟩
  | last some flat' => exact absurd (by simp [← whole]) flat'
  | @cons segments tail segment some flat' rest =>
    obtain ⟨front, same⟩ := front_unique flat flat' whole
    subst same front
    exact ⟨segments, by simp [some], rest⟩

theorem Joined.rest (flat : '/' ∉ run) (joined : Joined segments run) :
    segments = if run = [] then [] else [run] := by
  cases joined with
  | nil => simp
  | slash rest => exact absurd (by simp) flat
  | last some => simp [some]
  | cons some flat' rest => exact absurd (by simp) flat

end

section
variable {str : List Char} {start stop p : Nat}

theorem flat_window (flat : Flat str start stop) :
    '/' ∉ window str start stop := by
  intro slash
  obtain ⟨k, here⟩ := List.mem_iff_getElem?.mp slash
  simp only [getElem?_window] at here
  split at here
  · next below => exact flat (start + k) (by omega) below here
  · cases here

theorem drop_eq_of_found (found : Found str start p) :
    str.drop start = window str start p ++ '/' :: str.drop (p + 1) := by
  have below := found.below
  have here : str[p] = '/' := by
    simpa [List.getElem?_eq_getElem below] using found.slash
  have whole : str = str.take p ++ '/' :: str.drop (p + 1) := by
    simp only [← here, ← List.drop_eq_getElem_cons below, List.take_append_drop]
  have size : start ≤ (str.take p).length := by
    simp only [List.length_take, Nat.min_eq_left (Nat.le_of_lt below), found.above]
  calc str.drop start
      = (str.take p ++ '/' :: str.drop (p + 1)).drop start := congrArg (List.drop start) whole
    _ = window str start p ++ '/' :: str.drop (p + 1) := List.drop_append_of_le_length size

theorem piece_of_window (inside : stop ≤ str.length) :
    piece str start stop = if window str start stop = [] then [] else [window str start stop] := by
  have size : (window str start stop).length = stop - start := length_window inside
  unfold piece
  by_cases more : start < stop
  · have some : window str start stop ≠ [] := by
      intro none
      simp only [none, List.length_nil] at size
      omega
    simp only [more, some, if_true, if_false]
  · simp only [more, window_empty str (Nat.le_of_not_lt more), if_true, if_false]

end

def Left (segments : List (List Char)) (str : List Char) (start : Nat)
    (result : List (List Char)) : Prop :=
  ∃ rest, segments = result ++ rest ∧ Joined rest (str.drop start)

theorem Left.step {result : List (List Char)} {str : List Char} {start p : Nat}
    (left : Left segments str start result) (found : Found str start p) :
    Left segments str (p + 1) (result ++ piece str start p) := by
  obtain ⟨rest, same, joined⟩ := left
  simp only [drop_eq_of_found found] at joined
  obtain ⟨more, cut, further⟩ := joined.cut (flat_window found.flat)
  refine ⟨more, ?_, further⟩
  simp only [same, cut, piece_of_window (Nat.le_of_lt found.below), List.append_assoc]

theorem split_runs (str : List Char) : ∃ runs : List (Nat × Nat),
    split str = .ok (runs.map (fun r => window str r.1 r.2)) ∧
      (∀ i j, (i, j) ∈ runs ↔ IsRun str i j) ∧ runs.Pairwise (fun a b => a.2 < b.1) := by
  obtain ⟨start, result, ran, ⟨runs, scanned, same⟩, flat⟩ :=
    split_rule str (Cut str) (cut_start str) (fun start p result cut found => cut.step found)
  obtain ⟨runs_iff, ordered⟩ := scanned.more (Nat.le_refl _) scanned.inside flat (Or.inl rfl)
  refine ⟨runs ++ runBetween start str.length, ?_, ?_, ordered⟩
  · simp only [ran, same, piece_eq, List.map_append]
  · intro i j
    constructor
    · intro member
      exact ((runs_iff i j).mp member).1
    · intro run
      exact (runs_iff i j).mpr ⟨run, run.inside⟩

theorem split_joined {str : List Char} (joined : Joined segments str) :
    split str = .ok segments := by
  obtain ⟨start, result, ran, ⟨rest, same, left⟩, flat⟩ :=
    split_rule str (Left segments str) ⟨segments, rfl, joined⟩
      (fun start p result left found => left.step found)
  have behind : str.drop start = window str start str.length := by
    simp only [window, List.take_length]
  simp only [behind] at left
  have last := left.rest (flat_window flat)
  simp only [ran, same, last, piece_of_window (Nat.le_refl _)]

/-- Every string is cut into its maximal runs without a slash, in order. A text in which
    proper segments are joined, at the least with one slash between two, is cut into them. -/
theorem split_segments :
    (∀ str, ∃ runs : List (Nat × Nat),
      split str = .ok (runs.map (fun r => window str r.1 r.2)) ∧
        (∀ i j, (i, j) ∈ runs ↔ IsRun str i j) ∧ runs.Pairwise (fun a b => a.2 < b.1)) ∧
    (∀ segments str, Joined segments str → split str = .ok segments) ∧
    (∀ segments : List (List Char), (∀ s ∈ segments, s ≠ [] ∧ '/' ∉ s) →
      Joined segments (['/'].intercalate segments)) :=
  ⟨split_runs, fun _ _ joined => split_joined joined, fun _ proper => joined_intercalate proper⟩

def loosePath : List Char := "//proc//pid/status/".toList

theorem split_segments_of_loosePath :
    split loosePath = .ok ["proc".toList, "pid".toList, "status".toList] := by
  have tail : Joined ["pid".toList, "status".toList] "/pid/status/".toList :=
    .slash (.cons (by decide) (by decide) (.cons (by decide) (by decide) .nil))
  have joined : Joined ["proc".toList, "pid".toList, "status".toList] loosePath :=
    .slash (.slash (.cons (by decide) (by decide) tail))
  exact split_segments.2.1 _ loosePath joined

end Inspector
end Muduo
