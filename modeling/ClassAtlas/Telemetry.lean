import ClassAtlas.Collection.SortedMap
import ClassAtlas.Json.Basic

namespace ClassAtlas

/-- Where traces and measurements go. -/
structure TelemetrySettings where
  serviceName : Text
  serviceVersion : Text
  environment : Text
  traceExporter : Text
  metricExporter : Text
  endpoint : Text
  insecure : Bool
  deriving DecidableEq, Repr

/-- Why telemetry does not start. -/
inductive TelemetryError where
  | noContext
  | unknownTracer (name : Text)
  | unknownMeter (name : Text)
  deriving DecidableEq, Repr

/-- The wording of telemetry that does not start. -/
def TelemetryError.message : TelemetryError → Text
  | .noContext => "telemetry: nil context"
  | .unknownTracer name => "init tracer: telemetry: unknown exporter: " ++ name
  | .unknownMeter name => "init meter: telemetry: unknown exporter: " ++ name

namespace TelemetrySettings

/-- The value of an environment variable, or another one where it is empty. -/
def orElse (env : SortedMap Text Text) (name fallback : Text) : Text :=
  match env.find? name with
  | some v => if v.isEmpty then fallback else v
  | none => fallback

/-- The settings of an environment. -/
def ofEnv (env : SortedMap Text Text) : TelemetrySettings where
  serviceName := "modtrace"
  serviceVersion := "0.1.0"
  environment := orElse env "MODTRACE_ENV" "development"
  traceExporter := orElse env "OTEL_TRACES_EXPORTER" "none"
  metricExporter := orElse env "OTEL_METRICS_EXPORTER" "prometheus"
  endpoint := orElse env "OTEL_EXPORTER_OTLP_ENDPOINT" "localhost:4317"
  insecure := true

/-- The known places for traces. -/
def tracers : List Text := ["none", "otlp", "jaeger", "stdout"]

/-- The known places for measurements. -/
def meters : List Text := ["none", "prometheus", "stdout"]

/-- Tells why telemetry cannot start, if it cannot. -/
def refused? (s : TelemetrySettings) : Option TelemetryError :=
  if !tracers.contains s.traceExporter then some (.unknownTracer s.traceExporter)
  else if !meters.contains s.metricExporter then some (.unknownMeter s.metricExporter)
  else none

/-- Measurements can be fetched from the service. -/
def servesMetrics (s : TelemetrySettings) : Bool := s.metricExporter == "prometheus"

/-- The settings as JSON. -/
def toJson (s : TelemetrySettings) : Json :=
  .obj [("service_name", .str s.serviceName), ("service_version", .str s.serviceVersion),
    ("environment", .str s.environment), ("trace_exporter", .str s.traceExporter),
    ("metric_exporter", .str s.metricExporter), ("otlp_endpoint", .str s.endpoint),
    ("otlp_insecure", .bool s.insecure)]

end TelemetrySettings

namespace LogLine

/-- A lower-case hexadecimal digit. -/
def isLowerHex (b : UInt8) : Bool := Text.isDigit b || (97 ≤ b && b ≤ 102)

/-- An id of so many digits that is not zero. -/
def isId (digits : Nat) (t : Text) : Bool :=
  t.length == digits && t.all isLowerHex && t.any (· != 48)

/-- The members that name a span; both ids must be valid. -/
def spanMembers (traceId spanId : Text) : List (Text × Json) :=
  if isId 32 traceId && isId 16 spanId then [("trace_id", .str traceId), ("span_id", .str spanId)]
  else []

/-- A line of a log. -/
def info (message : Text) (attributes : List (Text × Json)) : Json :=
  .ofGroups [[("level", .str "INFO"), ("msg", .str message)], attributes]

/-- A line of a log that tells of an error. -/
def error (message : Text) (attributes : List (Text × Json)) : Json :=
  .ofGroups [[("level", .str "ERROR"), ("msg", .str message)], attributes]

end LogLine

end ClassAtlas
