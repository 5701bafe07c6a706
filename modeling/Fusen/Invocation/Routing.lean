import Fusen.Invocation.Invoke
import Mathlib.Data.List.Perm.Subperm

/-!
# Router chains

`matchOutput` consumes candidates with flags, as the code does; `matchOutput_eq` shows it
is `validateRouterOutput`, which takes the candidates away.  Acceptance is then being a
sub-multiset (`validateRouterOutput_eq_ok`), and `routed_subperm` composes it over a chain.
-/

namespace Fusen.Invocation

open Lib Contract Resilience Register

theorem sameInstance_iff {left right : ServiceInstance} :
    sameInstance left right = true ↔ left = right := by
  obtain ⟨_, _, _, _, _, _, _⟩ := left
  obtain ⟨_, _, _, _, _, _, _⟩ := right
  simp only [sameInstance, Bool.and_eq_true, decide_eq_true_eq, ServiceInstance.mk.injEq, and_assoc]

/-! ## Candidates with flags -/

/-- The first candidate that is like `x` and not matched yet. -/
def unmatchedIndex (input : List ServiceInstance) (matched : List Bool) (x : ServiceInstance) :
    Option Nat :=
  (input.zip matched).findIdx? fun c => !c.2 && sameInstance c.1 x

/-- The loop of `validate_router_output` over the output, with the flags it keeps. -/
def matchOutput (input : List ServiceInstance) :
    List Bool → List ServiceInstance → Except Error Unit
  | _, [] => .ok ()
  | matched, x :: output =>
    match unmatchedIndex input matched x with
    | none => .error invalidRouterOutput
    | some index => matchOutput input (matched.set index true) output

/-- The candidates that are left. -/
def unmatched (input : List ServiceInstance) (matched : List Bool) : List ServiceInstance :=
  ((input.zip matched).filter fun c => !c.2).map Prod.fst

theorem unmatchedIndex_spec {input : List ServiceInstance} {matched : List Bool}
    (h : matched.length = input.length) (x : ServiceInstance) :
    match unmatchedIndex input matched x with
    | none => (unmatched input matched).any (sameInstance · x) = false
    | some index => (unmatched input matched).any (sameInstance · x) = true ∧
        unmatched input (matched.set index true) =
          (unmatched input matched).eraseP (sameInstance · x) := by
  induction input generalizing matched with
  | nil => rfl
  | cons candidate input ih =>
    cases matched with
    | nil => cases h
    | cons flag matched =>
      have hrest := ih (Nat.succ.inj h)
      unfold unmatchedIndex unmatched at hrest ⊢
      rw [List.zip_cons_cons, List.findIdx?_cons]
      cases flag with
      | true =>
        cases hindex : (input.zip matched).findIdx? fun c => !c.2 && sameInstance c.1 x with
        | none => simpa [hindex] using hrest
        | some index => simpa [hindex] using hrest
      | false =>
        by_cases hsame : sameInstance candidate x = true
        · simp [hsame]
        · cases hindex : (input.zip matched).findIdx? fun c => !c.2 && sameInstance c.1 x with
          | none => simpa [hindex, hsame] using hrest
          | some index => simpa [hindex, hsame] using hrest

theorem matchOutput_eq (input : List ServiceInstance) (output : List ServiceInstance) :
    ∀ {matched : List Bool}, matched.length = input.length →
      matchOutput input matched output = validateRouterOutput (unmatched input matched) output := by
  induction output with
  | nil => intro _ _; rfl
  | cons x output ih =>
    intro matched h
    have hspec := unmatchedIndex_spec h x
    unfold matchOutput validateRouterOutput
    cases hindex : unmatchedIndex input matched x with
    | none =>
      rw [hindex] at hspec
      rw [if_neg (by rw [hspec]; exact Bool.false_ne_true)]
    | some index =>
      rw [hindex] at hspec
      rw [if_pos hspec.1, ← hspec.2]
      exact ih ((List.length_set ..).trans h)

/-! ## Sub-multisets -/

/-- Greedy matching decides inclusion of multisets. -/
theorem validateRouterOutput_eq_ok {input output : List ServiceInstance} :
    validateRouterOutput input output = .ok () ↔ output.Subperm input := by
  classical
  induction output generalizing input with
  | nil => exact ⟨fun _ => List.nil_subperm, fun _ => rfl⟩
  | cons x output ih =>
    have hpred : (fun candidate => sameInstance candidate x) = fun candidate => candidate == x := by
      funext candidate
      rw [Bool.eq_iff_iff, sameInstance_iff, beq_iff_eq]
    unfold validateRouterOutput
    rw [hpred]
    by_cases hmem : x ∈ input
    · have hany : (input.any fun candidate => candidate == x) = true :=
        List.any_eq_true.mpr ⟨x, hmem, beq_self_eq_true x⟩
      rw [if_pos hany, ← List.erase_eq_eraseP' x input, ih, ← List.subperm_cons x]
      exact (List.perm_cons_erase hmem).symm.subperm_left
    · have hany : ¬ (input.any fun candidate => candidate == x) = true := by
        rw [List.any_eq_true]
        rintro ⟨candidate, hcandidate, heq⟩
        exact hmem (beq_iff_eq.mp heq ▸ hcandidate)
      rw [if_neg hany]
      exact ⟨fun h => (by cases h), fun h => absurd (h.subset List.mem_cons_self) hmem⟩

theorem route_subperm {routers : List Router} {input routed : List ServiceInstance}
    (h : route input routers = .ok routed) : routed.Subperm input := by
  induction routers generalizing input with
  | nil =>
    cases h
    exact List.Subperm.refl _
  | cons router routers ih =>
    unfold route at h
    split at h
    · nomatch h
    · nomatch h
    · rename_i output _
      split at h
      · nomatch h
      · rename_i hvalid
        exact (ih h).trans ((validateRouterOutput_eq_ok).mp hvalid)

/-- No instance is matched at first. -/
theorem unmatched_replicate (input : List ServiceInstance) :
    unmatched input (List.replicate input.length false) = input := by
  unfold unmatched
  induction input with
  | nil => rfl
  | cons candidate input ih =>
    rw [List.length_cons, List.replicate_succ, List.zip_cons_cons, List.filter_cons_of_pos rfl,
      List.map_cons, ih]

/-! ## Selection -/

theorem untried_subperm (attempted : List ServiceEndpoint) (instances : List ServiceInstance) :
    (untried attempted instances).Subperm instances := by
  unfold untried
  split
  · exact List.filter_sublist.subperm
  · exact List.Subperm.refl _

theorem eligible_subperm (grants : Nat → Bool) (routed : List ServiceInstance) :
    (eligible grants routed).Subperm routed := by
  have hsub := (List.filter_sublist (p := fun x => grants x.2) (l := routed.zipIdx)).map Prod.fst
  rw [List.zipIdx_map_fst] at hsub
  exact hsub.subperm

variable {client : Client} {world : SelectionWorld} {attempted : List ServiceEndpoint}

theorem routable_subperm {routed : List ServiceInstance}
    (h : routable client world attempted = .ok routed) :
    routed.Subperm (compatible client world) := by
  unfold routable at h
  split at h
  · nomatch h
  · dsimp only at h
    split at h
    · nomatch h
    · split at h
      · nomatch h
      · rename_i hroute
        split at h
        · nomatch h
        · cases h
          exact (route_subperm hroute).trans (untried_subperm attempted _)

theorem compatible_subperm (hsource : client.source = .discovery) :
    (compatible client world).Subperm (world.snapshot.instances.filter (isCompatible client)) := by
  unfold compatible endpoints
  rw [hsource]
  dsimp only
  split
  · rename_i instances hinstances
    split at hinstances
    · nomatch hinstances
    · split at hinstances
      · nomatch hinstances
      · cases hinstances
        exact List.Subperm.refl _
  · exact List.nil_subperm

theorem mem_of_chooseEligible {loadBalancer : LoadBalancer} {instances : List ServiceInstance}
    {events : List Event} {selected : SelectedEndpoint}
    (h : chooseEligible client loadBalancer instances = (events, .ok selected)) :
    selected.instance_ ∈ instances := by
  unfold chooseEligible at h
  split at h
  · nomatch h
  · split at h
    · nomatch h
    · nomatch h
    · split at h
      · rename_i hindex
        cases h
        exact List.mem_of_getElem? hindex
      · nomatch h

/-- **Routers reorder and drop, and nothing else.**  The matching of one output decides
inclusion of multisets, and what the breakers, the load balancer and the call see of a
snapshot is included in its compatible instances. -/
theorem routed_subperm (hsource : client.source = .discovery) (world : SelectionWorld)
    (attempted : List ServiceEndpoint) :
    let candidates := world.snapshot.instances.filter (isCompatible client)
    (∀ input output, matchOutput input (List.replicate input.length false) output = .ok () ↔
      output.Subperm input) ∧
    (∀ routed, routable client world attempted = .ok routed →
      routed.Subperm candidates ∧ (eligible world.grants routed).Subperm candidates) ∧
    ∀ events selected, selectEndpoint client world attempted = (events, .ok selected) →
      selected.instance_ ∈ candidates := by
  intro candidates
  have hrouted {routed : List ServiceInstance} (h : routable client world attempted = .ok routed) :
      routed.Subperm candidates := (routable_subperm h).trans (compatible_subperm hsource)
  refine ⟨fun input output => ?_, fun routed h => ?_, fun events selected h => ?_⟩
  · rw [matchOutput_eq input output List.length_replicate, unmatched_replicate]
    exact validateRouterOutput_eq_ok
  · exact ⟨hrouted h, (eligible_subperm _ _).trans (hrouted h)⟩
  · unfold selectEndpoint at h
    split at h
    · nomatch h
    · rename_i routed hroutable
      exact ((eligible_subperm _ _).trans (hrouted hroutable)).subset (mem_of_chooseEligible h)

/-! ## Duplicates -/

def usersInstance : ServiceInstance := directInstance usersClient.bindingId usersEndpoint none

/-- One instance twice, and a router that turns the list around. -/
def doubledWorld : SelectionWorld where
  snapshot := ⟨1, .ready, [usersInstance, usersInstance]⟩
  routers := [fun routed => some (.ok routed.reverse)]
  grants _ := true
  loadBalancer _ := some (.ok 1)

theorem routed_subperm_doubled :
    routable { usersClient with source := .discovery } doubledWorld [] =
      .ok [usersInstance, usersInstance] ∧
    [usersInstance, usersInstance].Subperm (doubledWorld.snapshot.instances.filter
      (isCompatible { usersClient with source := .discovery })) := by
  have hroutable : routable { usersClient with source := .discovery } doubledWorld [] =
      .ok [usersInstance, usersInstance] := by rfl
  refine ⟨hroutable, ?_⟩
  exact ((@routed_subperm { usersClient with source := .discovery } rfl doubledWorld []).2.1 _
    hroutable).1

end Fusen.Invocation
