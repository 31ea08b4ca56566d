import Tumult.Graph.Recommend

/-!
# The map of the services

The view of the services with their verdicts, their dependencies and the recommendations, and its rendering in Mermaid.
-/

namespace Tumult.TopologyMap

/-! ## The view -/

inductive ServiceState where
  | evidenced
  | broken
  | untested
  | unknown
  deriving DecidableEq, Repr

namespace ServiceState

def glyph : ServiceState → String
  | evidenced => "OK"
  | broken => "BROKEN"
  | untested => "UNTESTED"
  | unknown => "UNKNOWN"

/-- The name of the `classDef`. -/
def className : ServiceState → String
  | evidenced => "evidenced"
  | broken => "broken"
  | untested => "untested"
  | unknown => "unknown"

end ServiceState

structure BrokenControl where
  articleId : String
  deviationId : Option String
  faultId : Option String
  guardName : Option String
  runId : Option String
  deriving DecidableEq

structure ServiceView where
  id : String
  label : String
  tier : Option String
  owner : Option String
  state : ServiceState
  evidenced : List String
  untested : List String
  broken : List BrokenControl
  deriving DecidableEq

structure TopologyMapView (S : Type) where
  services : List ServiceView
  dependsOn : List (String × String)
  recommendations : List (Recommend.Recommendation S)

/-! ## Mermaid -/

/-- Letters, digits and underscores only. -/
def sanitizeId (id : String) : String := String.ofList (id.toList.map fun c => if c.isAlphanum || c = '_' then c else '_')

/-- A quotation mark would end the label. -/
def escapeLabel (label : String) : String := String.ofList (label.toList.flatMap fun c => if c = '"' then "#quot;".toList else [c])

def causeId (sid : String) (index : Nat) : String := "cause_" ++ sid ++ "_" ++ toString index

def recId (index : Nat) : String := "rec_" ++ toString index

def causeLabel (control : BrokenControl) : String :=
  "fault: " ++ escapeLabel (control.faultId.getD "unattributed") ++
    match control.guardName with
    | some guardName => "<br/>guard: " ++ escapeLabel guardName
    | none => ""

def serviceLine (service : ServiceView) : String :=
  "  " ++ sanitizeId service.id ++ "[\"" ++ (escapeLabel service.label ++ " " ++ service.state.glyph) ++ "\"]\n"

def dependencyLine (edge : String × String) : String := "  " ++ sanitizeId edge.1 ++ " --> " ++ sanitizeId edge.2 ++ "\n"

def causeLines (sid : String) (p : BrokenControl × Nat) : String :=
  "  " ++ causeId sid p.2 ++ "[\"" ++ causeLabel p.1 ++ "\"]\n" ++ ("  " ++ causeId sid p.2 ++ " -.-> " ++ sid ++ "\n")

def recLines {S : Type} (p : Recommend.Recommendation S × Nat) : String :=
  "  " ++ recId p.2 ++ "[\"" ++ ("⚡ " ++ escapeLabel p.1.plugin ++ "::" ++ escapeLabel p.1.action ++ "<br/>for " ++
    escapeLabel p.1.articleId) ++ "\"]\n" ++ ("  " ++ recId p.2 ++ " -.-> " ++ sanitizeId p.1.serviceId ++ "\n")

def classDefs : List (String × String) :=
  [("evidenced", "fill:#2e7d32,color:#fff"), ("broken", "fill:#c62828,color:#fff"), ("untested", "fill:#f9a825"),
    ("unknown", "fill:#546e7a,color:#fff"), ("recommended", "fill:#6a1b9a,color:#fff")]

def classDefLine (p : String × String) : String := "  classDef " ++ p.1 ++ " " ++ p.2 ++ "\n"

def classLine (service : ServiceView) : String := "  class " ++ sanitizeId service.id ++ " " ++ service.state.className ++ "\n"

def recClassLine (index : Nat) : String := "  class " ++ recId index ++ " recommended\n"

def toMermaid {S : Type} (view : TopologyMapView S) : String :=
  "graph TD\n" ++
    (String.join (view.services.map serviceLine) ++
      (String.join (view.dependsOn.map dependencyLine) ++
        (String.join (view.services.map fun service =>
          String.join (service.broken.zipIdx.map (causeLines (sanitizeId service.id)))) ++
          (String.join (view.recommendations.zipIdx.map recLines) ++
            (String.join (classDefs.map classDefLine) ++
              (String.join (view.services.map classLine) ++
                String.join ((List.range view.recommendations.length).map recClassLine)))))))

end Tumult.TopologyMap
