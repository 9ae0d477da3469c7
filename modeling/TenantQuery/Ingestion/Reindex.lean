import TenantQuery.Compiler.Scope
import TenantQuery.Ingestion.Task

namespace TenantQuery.Ingestion

structure ReindexOptions where
  -- The data source to read, empty for the shared one.
  source : String := ""
  target : String := ""
  interval : Interval := .zero
  -- Bounds the parallelism if it is positive.
  maxSubTasks : Int := 0

/-- A task that reads the rows which a query scoped to the apps would see, test data included, and
rolls them up by the hour into segments of a day. -/
def reindexTask (apps : List Uuid) (options : ReindexOptions) : Except CompileError Task :=
  if apps.isEmpty then .error .noReindexApps
  else if options.target = "" then .error .noReindexTarget
  else
    .ok {
      spec := {
        ioConfig := some (.batch {
          inputFormat := some { type := "json" }
          inputSource := {
            dataSource :=
              if options.source = "" then Config.standard.dataSource else options.source
            interval := options.interval
            filter := Scope.appFilter apps }
          appendToExisting := some false })
        tuningConfig := some {
          partitionsSpec := some (.hashed none none)
          maxNumConcurrentSubTasks :=
            if 0 < options.maxSubTasks then some options.maxSubTasks else none
          forceGuaranteedRollup := some false }
        dataSchema := {
          dataSource := options.target
          timestampSpec := some ⟨"__time", "millis"⟩
          metricsSpec := some [.column .longSum ⟨"count", "count"⟩]
          granularitySpec := some ⟨.day, .hour, some true⟩
          dimensionsSpec := some { dimensionExclusions := some ["count"] } } } }

end TenantQuery.Ingestion
