import MessageHooks.Metrics.Counter
import MessageHooks.Metrics.Histogram

/-!
# Exposition of metrics

Metrics are shown as lines of text, a sample to a line: the name of the metric, its labels in braces
and a number. A label's value stands between quotation marks, in which backslashes, quotation marks
and line breaks are escaped, so that no value can end its line or its quotation.
-/

namespace MessageHooks.Exposition

def replaceChar (old : Char) (new s : List Char) : List Char :=
  s.flatMap fun c => if c = old then new else [c]

/-- A label's value as it stands between quotation marks. Backslashes are replaced first, since the
other replacements bring new ones. -/
def escape (s : String) : String :=
  let s := replaceChar '\\' ['\\', '\\'] s.toList
  let s := replaceChar '"' ['\\', '"'] s
  .ofList (replaceChar '\n' ['\\', 'n'] s)

def label (p : String × String) : String := p.1 ++ "=\"" ++ escape p.2 ++ "\""

def labelList (labels : Labels) : String := String.intercalate "," (labels.map label)

def sample (name labels : String) (n : UInt64) : String :=
  name ++ "\x7b" ++ labels ++ "\x7d " ++ toString n.toNat

def announce (name type : String) : String := "# TYPE " ++ name ++ " " ++ type

/-- The lines of a counter, one for each set of labels. -/
def counterLines (name : String) (c : Counter) : List String :=
  announce name "counter" ::
    c.rows.toList.map fun row => sample name (labelList row.1) row.2

/-- A bucket's labels: those of its row and, last, its upper bound. -/
def bucketLabels (labels bound : String) : String :=
  let le := "le=\"" ++ bound ++ "\""
  if labels.isEmpty then le else labels ++ "," ++ le

/-- The lines of one row: its buckets, the bucket without bound, the sum and the count. -/
def histogramRowLines (name : String) (labels : Labels) (row : HistogramRow) : List String :=
  let ls := labelList labels
  row.buckets.map (fun b => sample (name ++ "_bucket") (bucketLabels ls (toString b.1)) b.2) ++
    [sample (name ++ "_bucket") (bucketLabels ls "+Inf") row.count,
      sample (name ++ "_sum") ls row.sum,
      sample (name ++ "_count") ls row.count]

/-- The lines of a histogram, a group for each set of labels. -/
def histogramLines (name : String) (h : Histogram) : List String :=
  announce name "histogram" ::
    h.rows.toList.flatMap fun row => histogramRowLines name row.1 row.2

def ofLines (lines : List String) : String :=
  String.join (lines.map fun line => line ++ "\n")

end MessageHooks.Exposition
