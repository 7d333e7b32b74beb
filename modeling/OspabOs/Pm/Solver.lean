import Mathlib.Logic.Relation
import Mathlib.Data.List.Count
import Mathlib.Data.List.Nodup
import OspabOs.Lib.KeyMap

/-!
# The dependency solver of tomato-pm

`core::solver::resolve_dependencies` walks the dependency map from the
package asked for with an explicit stack (`to_resolve`) and a `seen` set:
a popped name already seen is skipped; otherwise it is marked seen, its
dependencies not yet seen are pushed in order, and it is appended to
`resolved`. At the end `resolved` is reversed, "to get installation
order", and returned in `Ok`; the solver never returns `Err`.

The map is `HashMap<String, Vec<String>>` read through `get` only, so it
is an association list here (`KeyMap.get?`), and `seen` is a list used
for membership. The stack is a list with its TOP FIRST: pushing the
dependencies `d₁, …, dₖ` in order leaves `dₖ` on top.

What is proved:

- the loop terminates on every map, cycles included: each turn either
  marks a name of the map seen or shrinks the stack (`resolveLoop`'s
  measure);
- the result holds every package reachable from the one asked for, each
  exactly once, and nothing else (`resolveDependencies_reachable`);
- it is NOT an installation order. `resolved` is the depth-first
  pre-order, in which a package comes right before the dependencies it
  pushed; reversing it puts a package after those, but a dependency
  reached first along another branch can still come after a package
  that needs it: with `a → [b, c]` and `b → [c]` the result is
  `[b, c, a]` (`resolveDependencies_diamond_out_of_order`).
-/

namespace OspabOs.Pm

/-- Every name a dependency map mentions, keys and dependencies. -/
def names (available : List (List Char × List (List Char))) : List (List Char) :=
  available.flatMap fun entry => entry.1 :: entry.2

/-- `p` lists `d` among its dependencies. -/
def DependsOn (available : List (List Char × List (List Char))) (p d : List Char) : Prop :=
  ∃ deps, KeyMap.get? p available = some deps ∧ d ∈ deps

/-- A key of the map is one of its names. -/
theorem mem_names_of_get? {available : List (List Char × List (List Char))} {p : List Char}
    {deps : List (List Char)} (found : KeyMap.get? p available = some deps) : p ∈ names available := by
  obtain mem := KeyMap.mem_of_get?_eq_some found
  exact List.mem_flatMap.mpr ⟨(p, deps), mem, List.mem_cons_self⟩

/-- Marking a name seen leaves no more names unseen. -/
theorem countP_not_mem_cons_le (names seen : List (List Char)) (pkg : List Char) :
    names.countP (· ∉ pkg :: seen) ≤ names.countP (· ∉ seen) :=
  List.countP_mono_left fun y _ unseen => by simp_all

/-- Marking a name of the map seen leaves fewer names unseen. -/
theorem countP_not_mem_cons_lt {names seen : List (List Char)} {pkg : List Char} (mem : pkg ∈ names)
    (fresh : pkg ∉ seen) : names.countP (· ∉ pkg :: seen) < names.countP (· ∉ seen) := by
  induction names with
  | nil => cases mem
  | cons x rest ih =>
    have le := countP_not_mem_cons_le rest seen pkg
    rw [List.countP_cons, List.countP_cons]
    by_cases same : x = pkg
    · subst same
      simp [fresh] at le ⊢
      omega
    · have later := ih ((List.mem_cons.mp mem).resolve_left (Ne.symm same))
      by_cases seenX : x ∈ seen <;> simp [seenX, same] at le later ⊢ <;> omega

/-- Marking a name outside the map seen leaves as many names unseen. -/
theorem countP_not_mem_cons_eq {names seen : List (List Char)} {pkg : List Char} (outside : pkg ∉ names) :
    names.countP (· ∉ pkg :: seen) = names.countP (· ∉ seen) := by
  apply List.countP_congr
  intro x mem
  have : x ≠ pkg := fun same => outside (same ▸ mem)
  simp [this]

/-- The dependencies a turn pushes: those not yet seen, in order, so that
the last is on top. -/
def pushed (available : List (List Char × List (List Char))) (pkg : List Char) (seen : List (List Char)) :
    List (List Char) :=
  match KeyMap.get? pkg available with
  | some deps => (deps.filter (· ∉ seen)).reverse
  | none => []

/-- A name outside the map pushes nothing. -/
theorem pushed_of_not_mem {available : List (List Char × List (List Char))} {pkg : List Char}
    (outside : pkg ∉ names available) (seen : List (List Char)) : pushed available pkg seen = [] := by
  unfold pushed
  cases found : KeyMap.get? pkg available with
  | none => rfl
  | some deps => exact absurd (mem_names_of_get? found) outside

/-- What a visit pushes: the dependencies not yet seen. -/
theorem mem_pushed {available : List (List Char × List (List Char))} {pkg d : List Char} {seen : List (List Char)} :
    d ∈ pushed available pkg seen ↔ DependsOn available pkg d ∧ d ∉ seen := by
  unfold pushed DependsOn
  cases found : KeyMap.get? pkg available with
  | none => simp
  | some deps => simp

/-- The `while let Some(pkg) = to_resolve.pop()` loop of
`resolve_dependencies`, from the stack (top first), `seen` and
`resolved`; it returns `resolved` when the stack is empty. -/
def resolveLoop (available : List (List Char × List (List Char))) (toResolve seen resolved : List (List Char)) :
    List (List Char) :=
  match toResolve with
  | [] => resolved
  | pkg :: rest =>
    if pkg ∈ seen then resolveLoop available rest seen resolved
    else resolveLoop available (pushed available pkg (pkg :: seen) ++ rest) (pkg :: seen) (resolved ++ [pkg])
termination_by ((names available).countP (· ∉ seen), toResolve.length)
decreasing_by
  · exact Prod.Lex.right _ (Nat.lt_succ_self _)
  · -- a name of the map is marked seen; any other pushes nothing
    rename_i fresh
    by_cases mem : pkg ∈ names available
    · exact Prod.Lex.left _ _ (countP_not_mem_cons_lt mem fresh)
    · rw [countP_not_mem_cons_eq mem, pushed_of_not_mem mem, List.nil_append]
      exact Prod.Lex.right _ (Nat.lt_succ_self _)

/-- `resolve_dependencies`: the loop from the package alone, its result
reversed. -/
def resolveDependencies (package : List Char) (available : List (List Char × List (List Char))) :
    Except (List Char) (List (List Char)) :=
  .ok (resolveLoop available [package] [] []).reverse

/-! ## What the loop keeps -/

section
variable (available : List (List Char × List (List Char))) (root : List Char)

/-- The loop's invariant, for a walk from `root`: every name on the stack
or seen is reachable; a seen name's dependencies are seen or on the
stack; `root` is seen or on the stack; and `resolved` lists the seen
names, once each. -/
structure LoopInv (toResolve seen resolved : List (List Char)) : Prop where
  reached : ∀ x, x ∈ toResolve ∨ x ∈ seen → Relation.ReflTransGen (DependsOn available) root x
  closed : ∀ x ∈ seen, ∀ d, DependsOn available x d → d ∈ seen ∨ d ∈ toResolve
  rooted : root ∈ seen ∨ root ∈ toResolve
  listed : ∀ x, x ∈ resolved ↔ x ∈ seen
  once : resolved.Nodup

theorem LoopInv.start : LoopInv available root [root] [] [] where
  reached := by
    rintro x (mem | mem)
    · rw [List.mem_singleton.mp mem]
    · cases mem
  closed := fun _ mem => absurd mem List.not_mem_nil
  rooted := .inr List.mem_cons_self
  listed := fun _ => Iff.rfl
  once := List.nodup_nil

variable {available root}

/-- A popped name already seen is dropped. -/
theorem LoopInv.skip {pkg : List Char} {rest seen resolved : List (List Char)}
    (inv : LoopInv available root (pkg :: rest) seen resolved) (old : pkg ∈ seen) :
    LoopInv available root rest seen resolved where
  reached x mem := inv.reached x (mem.imp (List.mem_cons_of_mem pkg) id)
  closed x seenX d dep := by
    rcases inv.closed x seenX d dep with seenD | queued
    · exact .inl seenD
    rcases List.mem_cons.mp queued with rfl | later
    · exact .inl old
    · exact .inr later
  rooted := by
    rcases inv.rooted with seenR | queued
    · exact .inl seenR
    rcases List.mem_cons.mp queued with rfl | later
    · exact .inl old
    · exact .inr later
  listed := inv.listed
  once := inv.once

/-- A popped name not yet seen is marked, its unseen dependencies pushed,
and it is appended to `resolved`. -/
theorem LoopInv.visit {pkg : List Char} {rest seen resolved : List (List Char)}
    (inv : LoopInv available root (pkg :: rest) seen resolved) (fresh : pkg ∉ seen) :
    LoopInv available root (pushed available pkg (pkg :: seen) ++ rest) (pkg :: seen) (resolved ++ [pkg]) := by
  have reachedPkg := inv.reached pkg (.inl List.mem_cons_self)
  refine ⟨?_, ?_, ?_, ?_, ?_⟩
  · rintro x (onStack | seenX)
    · rcases List.mem_append.mp onStack with pushedX | restX
      · exact reachedPkg.tail (mem_pushed.mp pushedX).1
      · exact inv.reached x (.inl (List.mem_cons_of_mem pkg restX))
    · rcases List.mem_cons.mp seenX with rfl | older
      · exact reachedPkg
      · exact inv.reached x (.inr older)
  · intro x seenX d dep
    rcases List.mem_cons.mp seenX with rfl | older
    · -- the new name: each dependency is seen already or was pushed now
      by_cases seenD : d ∈ x :: seen
      · exact .inl seenD
      · exact .inr (List.mem_append_left _ (mem_pushed.mpr ⟨dep, seenD⟩))
    · rcases inv.closed x older d dep with seenD | queued
      · exact .inl (List.mem_cons_of_mem pkg seenD)
      rcases List.mem_cons.mp queued with rfl | later
      · exact .inl List.mem_cons_self
      · exact .inr (List.mem_append_right _ later)
  · rcases inv.rooted with seenR | queued
    · exact .inl (List.mem_cons_of_mem pkg seenR)
    rcases List.mem_cons.mp queued with same | later
    · exact .inl (same ▸ List.mem_cons_self)
    · exact .inr (List.mem_append_right _ later)
  · intro x
    rw [List.mem_append, List.mem_singleton, inv.listed x, List.mem_cons, or_comm]
  · refine List.nodup_append.mpr ⟨inv.once, List.nodup_singleton pkg, ?_⟩
    intro x listed y same
    rw [List.mem_singleton.mp same]
    rintro rfl
    exact fresh ((inv.listed x).mp listed)

/-- THE RUN LEMMA: what the loop returns lists, once each, the names its
`seen` set would hold at the end, and those are closed under dependencies. -/
theorem LoopInv.loop {toResolve seen resolved : List (List Char)} (inv : LoopInv available root toResolve seen resolved) :
    LoopInv available root [] (resolveLoop available toResolve seen resolved)
      (resolveLoop available toResolve seen resolved) ∧
      (resolveLoop available toResolve seen resolved).Nodup := by
  induction toResolve, seen, resolved using resolveLoop.induct available with
  | case1 seen resolved =>
    rw [resolveLoop]
    exact ⟨⟨fun x mem => inv.reached x (mem.imp id ((inv.listed x).mp)),
      fun x mem d dep => (inv.closed x ((inv.listed x).mp mem) d dep).imp ((inv.listed d).mpr) id,
      inv.rooted.imp ((inv.listed root).mpr) id, fun _ => Iff.rfl, inv.once⟩, inv.once⟩
  | case2 pkg rest seen resolved old ih =>
    rw [resolveLoop, if_pos old]
    exact ih (inv.skip old)
  | case3 pkg rest seen resolved fresh ih =>
    rw [resolveLoop, if_neg fresh]
    exact ih (inv.visit fresh)

end

/-! ## The solver's result -/

/-- The solver returns `Ok` with every package reachable from the one
asked for, each exactly once, and nothing else, whatever the map,
cycles included. -/
theorem resolveDependencies_reachable (package : List Char) (available : List (List Char × List (List Char))) :
    ∃ list, resolveDependencies package available = .ok list ∧ list.Nodup ∧
      ∀ x, x ∈ list ↔ Relation.ReflTransGen (DependsOn available) package x := by
  obtain ⟨final, once⟩ := (LoopInv.start available package).loop
  refine ⟨_, rfl, List.nodup_reverse.mpr once, fun x => ?_⟩
  rw [List.mem_reverse]
  constructor
  · exact fun mem => final.reached x (.inr mem)
  · -- the seen names hold `package` and are closed under dependencies
    intro reach
    induction reach with
    | refl => exact final.rooted.resolve_right List.not_mem_nil
    | tail _ dep ih => exact (final.closed _ ih _ dep).resolve_right List.not_mem_nil

/-- A diamond: `a` needs `b` and `c`, and `b` needs `c`. The solver puts
`b` first, before its own dependency `c`. -/
theorem resolveDependencies_diamond_out_of_order :
    resolveDependencies "a".toList
        [("a".toList, ["b".toList, "c".toList]), ("b".toList, ["c".toList]), ("c".toList, [])] =
      .ok ["b".toList, "c".toList, "a".toList] ∧
    DependsOn [("a".toList, ["b".toList, "c".toList]), ("b".toList, ["c".toList]), ("c".toList, [])]
      "b".toList "c".toList := by
  refine ⟨?_, ["c".toList], rfl, List.mem_singleton_self _⟩
  simp [resolveDependencies, resolveLoop, pushed, KeyMap.get?]

end OspabOs.Pm
