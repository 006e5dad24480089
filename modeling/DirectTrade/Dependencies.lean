import DirectTrade.Library.DepthFirst
import DirectTrade.Snapshot

/-!
The dependency walk of an import. For every table of profiles the walk ends, and it refuses
exactly when a cycle or a missing profile can be reached from a profile of the snapshot. A profile
that is reached along several paths is no cycle.
-/

namespace DirectTrade

open Library Library.DepthFirst

/-- The digests that a profile depends on. -/
def dependencyGraph (profiles : Digest → Option Profile) (d : Digest) : Option (List Digest) :=
  (profiles d).map (·.dependencies)

def cyclicDependencies : Thrown :=
  .dtp "invalid_snapshot" "cyclic profile dependencies" 403

def missingDependency : Thrown :=
  .dtp "invalid_snapshot" "missing transitive profile dependency" 403

def Visit.move : Visit → Move Digest
  | .enter id => .enter id
  | .exit id => .exit id

def Walk.marks (walk : Walk) : Coloring Digest := ⟨walk.visiting, walk.visited⟩

theorem moves_enters (l : List Digest) :
    (l.map Visit.enter).map Visit.move = l.map Move.enter := by
  rw [List.map_map]
  rfl

/-- The walk has run out of moves, or has found a cycle or a missing profile. -/
def Settles (graph : Digest → Option (List Digest)) (roots : List Digest) : Attempt Walk → Prop
  | .ok walk => Sound graph roots walk.marks []
  | .error e =>
    (e = cyclicDependencies ∧ Cyclic graph roots) ∨ (e = missingDependency ∧ Missing graph roots)

/-- The sizes of a table bound the dependencies of its profiles. -/
def Sizes (profiles : Digest → Option Profile) (sizes : List (Digest × ℕ)) : Prop :=
  ∀ d p, profiles d = some p → (d, p.dependencies.length + 1) ∈ sizes

theorem walkProfiles_settles {profiles : Digest → Option Profile} {roots : List Digest}
    {sizes : List (Digest × ℕ)} (hsizes : Sizes profiles sizes) (fuel : ℕ) (walk : Walk)
    (stack : List Visit)
    (hsound : Sound (dependencyGraph profiles) roots walk.marks (stack.map Visit.move))
    (hfuel : stack.length + walk.marks.potential sizes ≤ fuel) :
    Settles (dependencyGraph profiles) roots (walkProfiles profiles fuel walk stack) := by
  induction fuel generalizing walk stack with
  | zero =>
    cases stack with
    | nil => exact hsound
    | cons visit rest =>
      rw [List.length_cons] at hfuel
      omega
  | succ fuel ih =>
    cases stack with
    | nil => exact hsound
    | cons visit rest =>
      rw [List.length_cons] at hfuel
      cases visit with
      | exit id =>
        -- the nodes that carry a mark stay the same
        have hpotential := walk.marks.potential_leave id sizes
        apply ih ⟨walk.visiting.filter (· ≠ id), walk.visited ++ [id]⟩ rest hsound.leave
        show rest.length + (walk.marks.leave id).potential sizes ≤ fuel
        omega
      | enter id =>
        rw [walkProfiles]
        by_cases hvisiting : id ∈ walk.visiting
        · rw [invalidSnapshot, demand, Outcome.demand, if_neg (not_not_intro hvisiting)]
          exact .inl ⟨rfl, hsound.cycle hvisiting⟩
        · rw [invalidSnapshot, demand, Outcome.demand, if_pos hvisiting, Outcome.ok_bind]
          by_cases hvisited : id ∈ walk.visited
          · rw [if_pos hvisited]
            exact ih walk rest (hsound.skip hvisited) (by omega)
          · rw [if_neg hvisited]
            cases hprofile : profiles id with
            | none => exact .inr ⟨rfl, hsound.missing (by rw [dependencyGraph, hprofile]; rfl)⟩
            | some p =>
              have hgraph : dependencyGraph profiles id = .some p.dependencies := by
                rw [dependencyGraph, hprofile]
                rfl
              have hpotential := Coloring.potential_enter (m := walk.marks) (hsizes id p hprofile)
                hvisiting hvisited
              have hopen := hsound.enter hvisiting hvisited hgraph
              rw [require, Outcome.require_some, Outcome.ok_bind]
              apply ih ⟨walk.visiting ++ [id], walk.visited⟩
              · rw [List.map_append, moves_enters]
                exact hopen
              · show _ + (walk.marks.enter id).potential sizes ≤ fuel
                rw [List.length_append, List.length_map, List.length_reverse, List.length_cons]
                omega

/-- Fuel that suffices for a walk does not change its outcome. -/
theorem walkProfiles_fuel {profiles : Digest → Option Profile} (extra fuel : ℕ) (walk : Walk)
    (stack : List Visit) (h : walkProfiles profiles fuel walk stack ≠ .error .fault) :
    walkProfiles profiles (fuel + extra) walk stack = walkProfiles profiles fuel walk stack := by
  induction fuel generalizing walk stack with
  | zero =>
    cases stack with
    | nil => cases extra <;> rfl
    | cons visit rest => exact absurd rfl h
  | succ fuel ih =>
    rw [Nat.succ_add]
    cases stack with
    | nil => rfl
    | cons visit rest =>
      cases visit with
      | exit id => exact ih _ _ h
      | enter id =>
        rw [walkProfiles] at h
        rw [walkProfiles, walkProfiles]
        by_cases hvisiting : id ∈ walk.visiting
        · rw [invalidSnapshot, demand, Outcome.demand, if_neg (not_not_intro hvisiting)]
          rfl
        · rw [invalidSnapshot, demand, Outcome.demand, if_pos hvisiting, Outcome.ok_bind] at h ⊢
          rw [Outcome.ok_bind]
          by_cases hvisited : id ∈ walk.visited
          · rw [if_pos hvisited] at h ⊢
            rw [if_pos hvisited]
            exact ih _ _ h
          · rw [if_neg hvisited] at h ⊢
            rw [if_neg hvisited]
            cases hprofile : profiles id with
            | none => rfl
            | some p =>
              rw [hprofile, require, Outcome.require_some, Outcome.ok_bind] at h
              rw [require, Outcome.require_some, Outcome.ok_bind, Outcome.ok_bind]
              exact ih _ _ h

/-- The walks from the profiles of a snapshot, each with the same fuel. -/
def walkDependencies (profiles : Digest → Option Profile) (fuel : ℕ) (walk : Walk)
    (roots : List Digest) : Attempt Walk :=
  roots.foldlM (fun walk root => walkProfiles profiles fuel walk [.enter root]) walk

theorem Settles.ne_fault {graph : Digest → Option (List Digest)} {roots : List Digest}
    {outcome : Attempt Walk} (h : Settles graph roots outcome) : outcome ≠ .error .fault := by
  intro heq
  rw [heq] at h
  rcases h with ⟨hfault, -⟩ | ⟨hfault, -⟩ <;> exact nomatch hfault

theorem Settles.mono {graph : Digest → Option (List Digest)} {roots roots' : List Digest}
    (hroots : roots ⊆ roots') {e : Thrown} (h : Settles graph roots (.error e)) :
    Settles graph roots' (.error e) := by
  rcases h with ⟨heq, hcyclic⟩ | ⟨heq, hmissing⟩
  · exact .inl ⟨heq, hcyclic.mono hroots⟩
  · exact .inr ⟨heq, hmissing.mono hroots⟩

theorem walkDependencies_settles {profiles : Digest → Option Profile}
    {sizes : List (Digest × ℕ)} (hsizes : Sizes profiles sizes) {fuel : ℕ}
    (hfuel : (sizes.map Prod.snd).sum + 1 ≤ fuel) (done roots : List Digest) (walk : Walk)
    (hsound : Sound (dependencyGraph profiles) done walk.marks []) :
    Settles (dependencyGraph profiles) (done ++ roots)
      (walkDependencies profiles fuel walk roots) := by
  induction roots generalizing done walk with
  | nil =>
    rw [List.append_nil]
    exact hsound
  | cons root rest ih =>
    have hpotential := walk.marks.potential_le sizes
    have hfirst := walkProfiles_settles hsizes fuel walk [.enter root] (hsound.start root)
      (by rw [List.length_singleton]; omega)
    have hroots : done ++ root :: rest = (done ++ [root]) ++ rest := by simp
    rw [hroots, walkDependencies, List.foldlM_cons]
    cases hwalk : walkProfiles profiles fuel walk [.enter root] with
    | error e =>
      rw [hwalk] at hfirst
      exact hfirst.mono (List.subset_append_left _ _)
    | ok walk' =>
      rw [hwalk] at hfirst
      exact ih (done ++ [root]) walk' hfirst

theorem sound_empty {graph : Digest → Option (List Digest)} :
    Sound graph [] (Walk.marks ⟨[], []⟩) [] where
  framed := trivial
  visiting := rfl
  single := List.nodup_nil
  apart := fun _ h => nomatch h
  known := fun _ h => nomatch h
  awaited := trivial
  ordered := fun before a after h => by
    cases before <;> exact nomatch h
  distinct := List.nodup_nil
  pending := fun _ h => nomatch h

theorem walkDependencies_fuel {profiles : Digest → Option Profile} {fuel : ℕ} (extra : ℕ)
    {roots : List Digest} {walk : Walk}
    (h : walkDependencies profiles fuel walk roots ≠ .error .fault) :
    walkDependencies profiles (fuel + extra) walk roots =
      walkDependencies profiles fuel walk roots := by
  induction roots generalizing walk with
  | nil => rfl
  | cons root rest ih =>
    rw [walkDependencies, List.foldlM_cons] at h
    rw [walkDependencies, walkDependencies, List.foldlM_cons, List.foldlM_cons]
    have hfirst : walkProfiles profiles fuel walk [.enter root] ≠ .error .fault := by
      intro hfault
      rw [hfault] at h
      exact h rfl
    rw [walkProfiles_fuel extra fuel walk _ hfirst]
    cases hwalk : walkProfiles profiles fuel walk [.enter root] with
    | error e => rfl
    | ok walk' =>
      rw [hwalk] at h
      exact ih h

/-- The sizes of the profiles that an import can use. -/
def candidateSizes (s : State) (snap : Snapshot) : List (Digest × ℕ) :=
  snap.profiles.map (fun p => (p.digest, p.dependencies.length + 1)) ++
    s.profiles.entries.map fun e => (e.1, e.2.dependencies.length + 1)

theorem sizes_candidate (s : State) (snap : Snapshot) :
    Sizes (candidateProfile s snap) (candidateSizes s snap) := by
  intro d p hp
  rw [candidateProfile, Option.or_eq_some_iff] at hp
  rcases hp with hfind | ⟨-, hget⟩
  · have hdigest : p.digest = d := by simpa using List.find?_some hfind
    apply List.mem_append_left
    exact List.mem_map.mpr ⟨p, List.mem_of_find?_eq_some hfind, by rw [hdigest]⟩
  · apply List.mem_append_right
    exact List.mem_map.mpr ⟨(d, p), (s.profiles.mem_entries_iff d p).mpr hget, rfl⟩

theorem walkFuel_eq (s : State) (snap : Snapshot) :
    walkFuel s snap = ((candidateSizes s snap).map Prod.snd).sum + 1 := by
  simp only [walkFuel, candidateSizes, Dict.values, List.map_append, List.map_map,
    Function.comp_def]

theorem validateDependencies_eq (s : State) (snap : Snapshot) :
    validateDependencies s snap = (do
      let _ ← walkDependencies (candidateProfile s snap) (walkFuel s snap) ⟨[], []⟩
        (snap.profiles.map (·.digest))
      pure ()) := by
  rw [validateDependencies, walkDependencies, List.foldlM_map]

/-- The walk of an import ends in one of three ways: it passes, and neither a cycle nor a missing
profile can be reached from the snapshot; or it refuses for a cycle that can be reached; or it
refuses for a missing profile that can be reached. No longer run changes its outcome. -/
theorem dependencyWalk_exact (s : State) (snap : Snapshot) :
    let graph := dependencyGraph (candidateProfile s snap)
    let roots := snap.profiles.map (·.digest)
    (validateDependencies s snap = .ok () ↔ ¬ (Cyclic graph roots ∨ Missing graph roots)) ∧
      (∀ e, validateDependencies s snap = .error e →
        (e = cyclicDependencies ∧ Cyclic graph roots) ∨
          (e = missingDependency ∧ Missing graph roots)) ∧
      ∀ extra, walkDependencies (candidateProfile s snap) (walkFuel s snap + extra) ⟨[], []⟩ roots =
        walkDependencies (candidateProfile s snap) (walkFuel s snap) ⟨[], []⟩ roots := by
  intro graph roots
  have hsettles : Settles graph roots
      (walkDependencies (candidateProfile s snap) (walkFuel s snap) ⟨[], []⟩ roots) :=
    walkDependencies_settles (sizes_candidate s snap) (walkFuel_eq s snap).ge [] roots ⟨[], []⟩
      sound_empty
  have hlonger := fun extra => walkDependencies_fuel extra hsettles.ne_fault
  rw [validateDependencies_eq]
  cases hwalk : walkDependencies (candidateProfile s snap) (walkFuel s snap) ⟨[], []⟩ roots with
  | error e =>
    rw [hwalk] at hsettles hlonger
    refine ⟨⟨(fun hok => nomatch hok), fun hclean => ?_⟩, fun e' he' => ?_, hlonger⟩
    · rcases hsettles with ⟨-, hcyclic⟩ | ⟨-, hmissing⟩
      · exact absurd (.inl hcyclic) hclean
      · exact absurd (.inr hmissing) hclean
    · have heq : e = e' := Except.error.inj he'
      exact heq ▸ hsettles
  | ok walk =>
    rw [hwalk] at hsettles hlonger
    obtain ⟨hcyclic, hmissing⟩ := Sound.finished hsettles
    refine ⟨⟨fun _ hfound => ?_, fun _ => rfl⟩, (fun e he => nomatch he), hlonger⟩
    rcases hfound with hfound | hfound
    · exact hcyclic hfound
    · exact hmissing hfound

end DirectTrade
