import Mathlib.Data.List.ProdSigma
import Podmin.Agent.Service.NodeState

/-!
# Which Pods a node reports

Kubernetes selects a Pod if every key of the selector is among its labels with the selector's value. The
controller reads an absent label as the empty string, and it forgets its Pods when there are no Services. What
it reports after a run of calls is what the last Services select among the last Pods as far as neither of the
two shows.
-/

namespace Podmin.Agent.Service

open Foundation Netip Api

/-! ## Kubernetes selection -/

/-- Every key of the selector is among the labels with its value. -/
def matchLabels (labels selector : GoMap String String) : Bool :=
  selector.pairs.all fun (key, value) ↦ decide (labels.lookup key = some value)

def chosen (service : Manifest.Service) (pod : Pods.Pod) : Bool :=
  pod.eligible && pod.ns == service.ns && matchLabels pod.labels service.selector

/-- The pairs of a Service and a Pod. -/
def candidates (services : List Manifest.Service) (pods : Pods.Snapshot) :
    List (Manifest.Service × Pods.Pod) :=
  services ×ˢ pods.pairs.map Prod.snd

/-- One endpoint for every pair of a Service and a Pod it chooses. -/
def chosenEndpoints (nodeGroup : String) (services : List Manifest.Service) (pods : Pods.Snapshot) :
    List Endpoint :=
  ((candidates services pods).filter fun (service, pod) ↦ chosen service pod).map
    fun (service, pod) ↦ endpointOf nodeGroup service pod

variable {services : List Manifest.Service} {service : Manifest.Service}

theorem mem_candidates {pods : Pods.Snapshot} {pod : Pods.Pod} :
    (service, pod) ∈ candidates services pods ↔
      service ∈ services ∧ ∃ uid, pods.lookup uid = some pod := by
  rw [candidates, List.mem_product, List.mem_map]
  constructor
  · rintro ⟨hservice, ⟨uid, _⟩, hentry, rfl⟩
    exact ⟨hservice, uid, GoMap.mem_pairs.mp hentry⟩
  · rintro ⟨hservice, uid, hpod⟩
    exact ⟨hservice, (uid, pod), GoMap.mem_pairs.mpr hpod, rfl⟩

theorem candidates_empty (services : List Manifest.Service) : candidates services ∅ = [] :=
  List.product_nil services

/-- The controller selects what Kubernetes does and, besides, Pods that lack a label with an empty value. -/
theorem chosen_iff_selects {pod : Pods.Pod} :
    chosen service pod = true ↔ selects service pod = true ∧
      ∀ key value, service.selector.lookup key = some value → (pod.labels.lookup key).isSome = true := by
  simp only [chosen, selects, matchLabels, selectorMatches, Bool.and_eq_true, List.all_eq_true, Prod.forall,
    GoMap.mem_pairs, decide_eq_true_eq, beq_iff_eq, and_assoc]
  refine and_congr_right fun _ ↦ and_congr_right fun _ ↦ ?_
  constructor
  · intro hlabels
    constructor
    · intro key value hvalue
      rw [hlabels key value hvalue, Option.getD_some]
    · intro key value hvalue
      rw [hlabels key value hvalue, Option.isSome_some]
  · rintro ⟨hread, hpresent⟩ key value hvalue
    obtain ⟨label, hlabel⟩ := Option.isSome_iff_exists.mp (hpresent key value hvalue)
    have hsame := hread key value hvalue
    rw [hlabel, Option.getD_some] at hsame
    rw [hlabel, hsame]

/-! ## Node states -/

theorem product_filter_map {First Second Result : Type*} (first : List First) (second : List Second)
    (keep : First → Second → Bool) (change : First → Second → Result) :
    ((first ×ˢ second).filter fun (left, right) ↦ keep left right).map
        (fun (left, right) ↦ change left right) =
      first.flatMap fun left ↦ (second.filter (keep left)).map (change left) := by
  induction first with
  | nil => rfl
  | cons left first ih =>
    rw [List.product_cons, List.filter_append, List.map_append, List.flatMap_cons, ih, List.filter_map,
      List.map_map]
    rfl

/-- A node state has one endpoint for every pair the controller selects. -/
theorem nodeState_endpoints (controller : Controller) (session : String) (sequence : Nat) :
    (controller.nodeState session sequence).endpoints.Perm
      (((candidates controller.services controller.pods).filter fun (service, pod) ↦
        selects service pod).map fun (service, pod) ↦ endpointOf controller.nodeGroup service pod) := by
  rw [candidates, product_filter_map]
  exact (sortSlice_perm _ _).trans ((sortSlice_perm _ controller.services).flatMap_right _)

/-- Keeping fewer items leaves as many only if they are the same. -/
theorem filter_map_perm_iff {Item Result : Type*} {items : List Item} {more fewer : Item → Bool}
    {change : Item → Result} (hfewer : ∀ item, fewer item = true → more item = true) :
    ((items.filter more).map change).Perm ((items.filter fewer).map change) ↔
      ∀ item ∈ items, more item = true → fewer item = true := by
  constructor
  · intro hperm item hitem hmore
    have hlength : (items.filter fewer).length = (items.filter more).length := by
      simpa using hperm.length_eq.symm
    have hsame := (List.monotone_filter_right items hfewer).eq_of_length hlength
    have hmem : item ∈ items.filter fewer := by
      rw [hsame]
      exact List.mem_filter.mpr ⟨hitem, hmore⟩
    exact (List.mem_filter.mp hmem).2
  · intro hsame
    have hfilter : items.filter more = items.filter fewer :=
      List.filter_congr fun item hitem ↦ Bool.eq_iff_iff.mpr ⟨hsame item hitem, hfewer item⟩
    rw [hfilter]

/-! ## Runs of calls -/

/-- A call of one of the two setters; each of them takes effect at once. -/
inductive Call where
  | setServices (value : List Manifest.Service)
  | setPods (value : Pods.Snapshot)

def Controller.call (controller : Controller) : Call → Controller
  | .setServices value => controller.setServices value
  | .setPods value => controller.setPods value

def newController (cluster nodeGroup : String) (nodeIPv6 : Addr) : Controller :=
  ⟨cluster, nodeGroup, nodeIPv6, [], ∅⟩

def Controller.run (controller : Controller) (calls : List Call) : Controller :=
  calls.foldl Controller.call controller

/-- The Services of the last `SetServices`. -/
def lastServices (calls : List Call) : List Manifest.Service :=
  (calls.filterMap fun
    | .setServices value => some value
    | .setPods _ => none).getLast?.getD []

/-- The Pods of the last `SetPods`. -/
def lastPods (calls : List Call) : Pods.Snapshot :=
  (calls.filterMap fun
    | .setServices _ => none
    | .setPods value => some value).getLast?.getD ∅

/-- There was a time without Services after the last `SetPods`. -/
def podsDropped (calls : List Call) : Bool :=
  (calls.reverse.takeWhile fun
    | .setServices _ => true
    | .setPods _ => false).any fun
      | .setServices value => value.isEmpty
      | .setPods _ => false

theorem lastServices_concat (calls : List Call) (call : Call) : lastServices (calls ++ [call]) =
    match call with
    | .setServices value => value
    | .setPods _ => lastServices calls := by
  cases call <;> simp [lastServices, List.filterMap_append]

theorem lastPods_concat (calls : List Call) (call : Call) : lastPods (calls ++ [call]) =
    match call with
    | .setServices _ => lastPods calls
    | .setPods value => value := by
  cases call <;> simp [lastPods, List.filterMap_append]

theorem podsDropped_concat (calls : List Call) (call : Call) : podsDropped (calls ++ [call]) =
    match call with
    | .setServices value => value.isEmpty || podsDropped calls
    | .setPods _ => false := by
  cases call <;> simp [podsDropped]

/-- What the controller holds after a run of calls. -/
theorem run_eq (cluster nodeGroup : String) (nodeIPv6 : Addr) (calls : List Call) :
    (newController cluster nodeGroup nodeIPv6).run calls = ⟨cluster, nodeGroup, nodeIPv6,
      lastServices calls, if podsDropped calls then ∅ else lastPods calls⟩ := by
  induction calls using List.reverseRecOn with
  | nil => rfl
  | append_singleton calls call ih =>
    rw [Controller.run, List.foldl_append, List.foldl_cons, List.foldl_nil, ← Controller.run, ih,
      lastServices_concat, lastPods_concat, podsDropped_concat]
    cases call with
    | setPods value => rfl
    | setServices value =>
      cases hempty : value.isEmpty <;> simp [Controller.call, Controller.setServices, hempty]

/-- Where neither deviation of the controller shows. -/
structure Undisturbed (calls : List Call) : Prop where
  dropped : podsDropped calls = true → ∀ service ∈ lastServices calls, ∀ uid pod,
    (lastPods calls).lookup uid = some pod → chosen service pod = false
  absent : podsDropped calls = false → ∀ service ∈ lastServices calls, ∀ uid pod,
    (lastPods calls).lookup uid = some pod → selects service pod = true →
    ∀ key value, service.selector.lookup key = some value → (pod.labels.lookup key).isSome = true

theorem chosenEndpoints_eq_nil {nodeGroup : String} {pods : Pods.Snapshot} :
    chosenEndpoints nodeGroup services pods = [] ↔
      ∀ service ∈ services, ∀ uid pod, pods.lookup uid = some pod → chosen service pod = false := by
  rw [chosenEndpoints, List.map_eq_nil_iff, List.filter_eq_nil_iff]
  constructor
  · intro hnone service hservice uid pod hpod
    exact Bool.eq_false_iff.mpr (hnone (service, pod) (mem_candidates.mpr ⟨hservice, uid, hpod⟩))
  · rintro hnone ⟨service, pod⟩ hpair
    obtain ⟨hservice, uid, hpod⟩ := mem_candidates.mp hpair
    exact Bool.eq_false_iff.mp (hnone service hservice uid pod hpod)

/-- After a run of calls the node reports what the last Services choose among the last Pods exactly if no time
without Services made it forget a chosen Pod and no label with an empty value is missing on a selected one. -/
theorem selection_exact_iff (cluster nodeGroup : String) (nodeIPv6 : Addr) (calls : List Call) :
    (∀ session sequence,
      (((newController cluster nodeGroup nodeIPv6).run calls).nodeState session sequence).endpoints.Perm
        (chosenEndpoints nodeGroup (lastServices calls) (lastPods calls))) ↔ Undisturbed calls := by
  have hreported := fun session sequence ↦
    nodeState_endpoints ((newController cluster nodeGroup nodeIPv6).run calls) session sequence
  rw [run_eq] at hreported ⊢
  cases hdropped : podsDropped calls with
  | true =>
    rw [hdropped] at hreported
    have hnothing : ∀ session sequence, (Controller.nodeState ⟨cluster, nodeGroup, nodeIPv6,
        lastServices calls, ∅⟩ session sequence).endpoints = [] :=
      fun session sequence ↦ List.perm_nil.mp (by simpa [candidates_empty] using hreported session sequence)
    simp only [if_true, hnothing, List.nil_perm, forall_const, chosenEndpoints_eq_nil]
    exact ⟨fun hnone ↦ ⟨fun _ ↦ hnone, by simp [hdropped]⟩, fun hundisturbed ↦ hundisturbed.dropped hdropped⟩
  | false =>
    rw [hdropped] at hreported
    have hmore : ∀ pair : Manifest.Service × Pods.Pod,
        chosen pair.1 pair.2 = true → selects pair.1 pair.2 = true :=
      fun pair hchosen ↦ (chosen_iff_selects.mp hchosen).1
    have hiff := @filter_map_perm_iff _ _ (candidates (lastServices calls) (lastPods calls))
      (fun pair ↦ selects pair.1 pair.2) (fun pair ↦ chosen pair.1 pair.2)
      (fun pair ↦ endpointOf nodeGroup pair.1 pair.2) hmore
    constructor
    · intro hexact
      refine ⟨by simp [hdropped], fun _ service hservice uid pod hpod hselects ↦ ?_⟩
      have hsame := hiff.mp ((hreported "" 0).symm.trans (hexact "" 0)) (service, pod)
        (mem_candidates.mpr ⟨hservice, uid, hpod⟩) hselects
      exact (chosen_iff_selects.mp hsame).2
    · intro hundisturbed session sequence
      apply (hreported session sequence).trans (hiff.mpr _)
      rintro ⟨service, pod⟩ hpair hselects
      obtain ⟨hservice, uid, hpod⟩ := mem_candidates.mp hpair
      exact chosen_iff_selects.mpr
        ⟨hselects, hundisturbed.absent hdropped service hservice uid pod hpod hselects⟩

/-! ## Two runs that go wrong -/

/-- A Service that asks for an `app` label with the given value. -/
def appService (value : String) : Manifest.Service :=
  ⟨"web", "default", (∅ : GoMap String String).insert "app" value, [⟨"http", "TCP", 80, 80⟩]⟩

/-- One ready Pod with the given labels. -/
def onePod (labels : GoMap String String) : Pods.Snapshot :=
  (∅ : Pods.Snapshot).insert "uid"
    ⟨"uid", "default", labels, .v6 0xfd000000000000000000000000000001#128 "", true⟩

/-- A Pod without labels and a Service that asks for an empty one. -/
def unlabelled : List Call :=
  [.setPods (onePod ∅), .setServices [appService ""]]

/-- A time without Services before the Service that chooses the Pod. -/
def interrupted : List Call :=
  [.setPods (onePod ((∅ : GoMap String String).insert "app" "web")), .setServices [],
    .setServices [appService "web"]]

/-- The Pod without labels is reported although its Service does not choose it, and the Pod that was forgotten
is not reported although its Service chooses it. -/
theorem selection_deviates :
    ¬(((newController "cluster" "workers" .invalid).run unlabelled).nodeState "session" 1).endpoints.Perm
      (chosenEndpoints "workers" (lastServices unlabelled) (lastPods unlabelled)) ∧
    ¬(((newController "cluster" "workers" .invalid).run interrupted).nodeState "session" 1).endpoints.Perm
      (chosenEndpoints "workers" (lastServices interrupted) (lastPods interrupted)) := by
  constructor
  · intro hperm
    exact absurd hperm.length_eq (by decide)
  · intro hperm
    exact absurd hperm.length_eq (by decide)

end Podmin.Agent.Service
