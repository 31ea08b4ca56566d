import Tumult.Graph.Lineage
import Tumult.Graph.Topology
import Tumult.Lib.Bfs

/-!
# Injection recommendations

For each control that is broken or untested on a service, one action of the catalogue with a score and the reasons for its factors;
the best ones first. The arithmetic of floating-point numbers is taken from outside, with `total_cmp` as the order.
-/

namespace Tumult.Recommend

/-- Distance assigned when no broken service is reachable. -/
def UNREACHABLE_DISTANCE : Nat := 5

/-- The arithmetic of `f64`, with what is documented of its maximum: of positive numbers it is the greater one, and a number that is
not positive does not count beside one that is. -/
structure FloatOps (S : Type) [LinearOrder S] where
  /-- A literal, or a whole number that is converted. -/
  ofRat : ℚ → S
  add : S → S → S
  mul : S → S → S
  div : S → S → S
  max : S → S → S
  /-- `x > 0.0` -/
  pos : S → Bool
  /-- `{:.0}` -/
  rounded : S → String
  zero_not_pos : pos (ofRat 0) = false
  max_pos : ∀ a b, pos a = true → pos b = true → max a b = a ⊔ b
  max_left : ∀ a b, pos a = true → pos b = false → max a b = a
  max_right : ∀ a b, pos a = false → pos b = true → max a b = b
  max_not_pos : ∀ a b, pos a = false → pos b = false → pos (max a b) = false

/-- Everything `recommend` needs; the keys of a map are distinct. -/
structure RecommendationInput (S : Type) where
  lineage : List LineageCell
  dependsOn : List (String × String)
  availableActions : List AvailableAction
  testedActionNames : Finset String
  articleStrength : String → Option String
  criticality : List (String × S)
  distinct : (criticality.map (·.1)).Nodup

/-- One ranked, explained injection recommendation. -/
structure Recommendation (S : Type) where
  serviceId : String
  plugin : String
  action : String
  articleId : String
  strength : String
  score : S
  reasons : List String
  deriving DecidableEq

section

variable {S : Type} [LinearOrder S] (F : FloatOps S) (input : RecommendationInput S)

/-- Citation-strength factor. -/
def strengthWeight : String → ℚ
  | "direct" => 1
  | "supporting" => 7 / 10
  | _ => 4 / 10

/-- How many distinct services depend on a service. -/
def inDegree (dependsOn : List (String × String)) (service : String) : Nat :=
  ((dependsOn.filter (·.2 = service)).map (·.1)).dedup.length

/-- The greatest of the degrees. -/
def maxInDegree (dependsOn : List (String × String)) : Nat := (dependsOn.map fun edge => inDegree dependsOn edge.2).foldl max 0

/-- The undirected neighbours of a service, in the order of the edges. -/
def adjacency (dependsOn : List (String × String)) (service : String) : List String :=
  dependsOn.flatMap fun (src, dst) => (if src = service then [dst] else []) ++ if dst = service then [src] else []

/-- The services with a broken cell, sorted. -/
def brokenServices : List String :=
  (((input.lineage.filter (·.status = .broken)).map (·.serviceId)).dedup).mergeSort (· ≤ ·)

/-- Multi-source breadth-first search over the undirected graph, with a step for each service that is named. -/
def brokenDistances (dependsOn : List (String × String)) (broken : List String) : Bfs.State String :=
  Bfs.run (adjacency dependsOn) (broken.length + 2 * dependsOn.length) (Bfs.start broken)

/-- The distance that the proximity is computed from. -/
def proximityDistance (service : String) : Nat :=
  if brokenServices input = [] then 0
  else ((brokenDistances input.dependsOn (brokenServices input)).get service).getD UNREACHABLE_DISTANCE

/-- The actions, sorted. -/
def sortedActions : List AvailableAction :=
  input.availableActions.mergeSort fun a b => toLex (a.plugin, a.action) ≤ toLex (b.plugin, b.action)

/-- The first action that was never tested, or the first one. -/
def pickAction : Option AvailableAction :=
  ((sortedActions input).find? (·.action ∉ input.testedActionNames)).or (sortedActions input).head?

/-- The services and articles with a broken or an untested cell, in their order. -/
def candidates : OrdMap (String ×ₗ String) ControlServiceStatus :=
  (input.lineage.filter fun cell => cell.status = .broken ∨ cell.status = .untested).foldl
    (fun m cell => m.alter (toLex (cell.serviceId, cell.articleId)) fun _ => cell.status) .empty

/-- The greatest rate of traffic. -/
def maxCriticality : S := (input.criticality.map (·.2)).foldl F.max (F.ofRat 0)

/-- The factor and the reason of the observed traffic, where there is one. -/
def trafficFactor (service : String) : Option (S × String) :=
  let max := maxCriticality F input
  if F.pos max then
    match input.criticality.lookup service with
    | some rate =>
      if F.pos rate then
        some (F.add (F.ofRat 1) (F.div rate max), "observed traffic rate " ++ F.rounded rate ++ " (" ++
          F.rounded (F.div (F.mul (F.ofRat 100) rate) max) ++ "% of busiest service)")
      else none
    | none => none
  else none

/-- The reason for the proximity. -/
def proximityReason (service : String) (d : Nat) : String :=
  if d = 0 then
    if service ∈ brokenServices input then service ++ " itself has a broken control"
    else "no broken services anywhere — proximity neutral"
  else toString d ++ " hop(s) from the nearest broken service"

/-- The recommendation of an action for a service and an article. -/
def recommendation (action : AvailableAction) (service article : String) (status : ControlServiceStatus) : Recommendation S :=
  let (stateWeight, stateWord) := if status = .broken then ((1 : ℚ), "broken") else (6 / 10, "untested")
  let strength := (input.articleStrength article).getD "indirect"
  let degree := inDegree input.dependsOn service
  let maxDegree := maxInDegree input.dependsOn
  let d := proximityDistance input service
  let untested := action.action ∉ input.testedActionNames
  let score := F.mul (F.mul (F.ofRat 1) (F.ofRat stateWeight)) (F.ofRat (strengthWeight strength))
  let score :=
    if maxDegree > 0 then F.mul score (F.add (F.ofRat 1) (F.div (F.ofRat degree) (F.ofRat maxDegree))) else score
  let score := F.mul score (F.div (F.ofRat 1) (F.add (F.ofRat 1) (F.ofRat d)))
  let score := if untested then F.mul score (F.ofRat (125 / 100)) else score
  let traffic := trafficFactor F input service
  { serviceId := service
    plugin := action.plugin
    action := action.action
    articleId := article
    strength := strength
    score := match traffic with
      | some (factor, _) => F.mul score factor
      | none => score
    reasons :=
      [article ++ " is " ++ stateWord ++ " on " ++ service,
        "citation strength for " ++ article ++ " is " ++ strength,
        toString degree ++ " service" ++ (if degree = 1 then "" else "s") ++ " depend on " ++ service,
        proximityReason input service d] ++
      (if untested then ["action " ++ action.plugin ++ "::" ++ action.action ++ " never tested"] else []) ++
      (traffic.map (·.2)).toList }

/-- The place of a recommendation in the order: the score descending, the service, the plugin and the action, the article. -/
def Recommendation.rank (r : Recommendation S) : Sᵒᵈ ×ₗ String ×ₗ (String ×ₗ String) ×ₗ String :=
  toLex (OrderDual.toDual r.score, toLex (r.serviceId, toLex (toLex (r.plugin, r.action), r.articleId)))

/-- A recommendation for each candidate. -/
def unranked : List (Recommendation S) :=
  match pickAction input with
  | none => []
  | some action =>
    (candidates input).entries.map fun (key, status) => recommendation F input action (ofLex key).1 (ofLex key).2 status

/-- Rank injection candidates; at most so many. -/
def recommend (limit : Nat) : List (Recommendation S) := ((unranked F input).mergeSort fun a b => a.rank ≤ b.rank).take limit

end

end Tumult.Recommend
