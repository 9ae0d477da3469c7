import TenantQuery.Expansion.Options

namespace TenantQuery.Expansion

def eventCountField : String := "count"
def histogramField : String := "floatValue"
def histogramSketch : String := "_histogramSketch"
def histogramSketchK : Int := 1024

def lowerAggregator (options : Options) : Aggregator → Aggregator × Option PostAggregator
  | .userCount name => (options.userSketch (Aggregator.userCount name).outputName, none)
  | .eventCount name =>
    (.column .longSum ⟨(Aggregator.eventCount name).outputName, eventCountField⟩, none)
  | .histogram h =>
    (.quantilesSketch {
       name := histogramSketch, fieldName := histogramField, k := some histogramSketchK },
     some (.sketchHistogram (Aggregator.histogram h).outputName
       (PostAggregator.access histogramSketch) h.bins))
  | .filtered filter inner name =>
    let (lowered, post) := lowerAggregator options inner
    (.filtered filter lowered name, post)
  | a => (a, none)

/-- Post-aggregators of histograms come after the ones that are given. Lists that are absent stay
absent unless something is added to them. -/
def lowerConvenience (options : Options) (aggregators : Option (List Aggregator))
    (postAggregators : Option (List PostAggregator)) :
    Option (List Aggregator) × Option (List PostAggregator) :=
  match aggregators with
  | none => (none, postAggregators)
  | some as =>
    let lowered := as.map (lowerAggregator options)
    let added := lowered.filterMap (·.2)
    (some (lowered.map (·.1)),
     if added.isEmpty then postAggregators else some (postAggregators.getD [] ++ added))

end TenantQuery.Expansion
