import StorageFeatures.Decimal.Shortest
import StorageFeatures.Metrics.Basic

/-!
# Metrics as text

The text format of metrics: every family with a help line and a type line, the families sorted by
name, the samples of a family sorted by label, a family without samples left out. Values are
floating-point numbers in positional notation; counters wrap at 64 bits.
-/

namespace StorageFeatures.Metrics

/-- A family of samples. -/
structure Family where
  name : String
  help : String
  kind : String
  lines : List String

/-- How a character stands inside the value of a label. -/
def escapeLabel (c : Char) : List Char :=
  if c = '\\' then ['\\', '\\']
  else if c = '"' then ['\\', '"']
  else if c = '\n' then ['\\', 'n']
  else [c]

/-- A label with its value. -/
def label (name value : String) : String :=
  "\x7b" ++ name ++ "=\"" ++ String.ofList (value.toList.flatMap escapeLabel) ++ "\"\x7d"

def counterText (n : Nat) : String := (Binary64.ofInt (n % UInt64.size : Nat)).text

def sample (name value : String) : String := name ++ " " ++ value

/-- The common beginning of all names. -/
def scope : String := "storage_capability_"

def labelled (name help labelName : String) (counts : NameMap Nat) : Family :=
  let name := scope ++ name
  { name, help, kind := "counter"
    lines := counts.entries.map fun (value, n) =>
      sample (name ++ label labelName value) (counterText n) }

def single (name help kind value : String) : Family :=
  let name := scope ++ name
  { name, help, kind, lines := [sample name value] }

def histogram (name help : String) (h : Histogram) : Family :=
  let name := scope ++ name
  let bounds := Histogram.bounds.map (fun b => (Histogram.bound b).text) ++ ["+Inf"]
  { name, help, kind := "histogram"
    lines :=
      (bounds.zip h.cumulative).map (fun (bound, n) =>
        sample (name ++ "_bucket" ++ label "le" bound) (counterText n)) ++
      [sample (name ++ "_sum") h.sum.text, sample (name ++ "_count") (counterText h.count)] }

/-- The families sorted by name. -/
def families (m : Metrics) : List Family := [
  labelled "probe_total" "CSI capability probes by result" "result" m.probe,
  labelled "publish_total" "ProvisionerCapability publish ticks by outcome" "outcome" m.publish,
  single "queue_adds_total" "Keys handed to the work queue" "counter" (counterText m.queueAdds),
  single "queue_depth" "Keys waiting in the work queue" "gauge"
    (Binary64.ofInt m.queueDepth).text,
  single "queue_retries_total" "Keys requeued after a failed reconcile pass" "counter"
    (counterText m.queueRetries),
  histogram "reconcile_duration_seconds" "Duration of one reconcile pass in seconds" m.durations,
  labelled "reconcile_total" "Reconcile passes by outcome" "outcome" m.reconcile]

/-- The lines of a family. -/
def Family.text (f : Family) : List String :=
  if f.lines.isEmpty then []
  else ("# HELP " ++ f.name ++ " " ++ f.help) :: ("# TYPE " ++ f.name ++ " " ++ f.kind) :: f.lines

/-- The metrics in the text format. -/
def text (m : Metrics) : String :=
  String.join ((m.families.flatMap Family.text).map (· ++ "\n"))

/-- The media type of the text format. -/
def mediaType : String := "text/plain; version=0.0.4"

end StorageFeatures.Metrics
