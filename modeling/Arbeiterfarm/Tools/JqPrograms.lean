import Arbeiterfarm.Core.Json

/-!
# Programs of jq

A function of jq may be called where it has been defined before, and in its own body. The tool's
prelude is a list of definitions that stands before the user's expression, and what none of them
defines is left to the native filters.
-/

namespace Arbeiterfarm.Tools.Jq

/-! ### Filters -/

inductive BinaryOp
  | pipe
  | comma
  | alternative
  | update
  | or
  | and
  | equal
  | unequal
  | less
  | lessEqual
  | greater
  | greaterEqual
  | add
  | subtract

/-- A filter. The variables are written with their `$`, and a missing bound of a slice is `null`. -/
inductive Filter
  | identity
  | literal (text : String)
  | var (name : String)
  | call (name : String) (args : List Filter)
  /-- `f[key]`. -/
  | path (f key : Filter)
  | slice (f start stop : Filter)
  /-- `f[]`. -/
  | each (f : Filter)
  /-- `f?`. -/
  | attempt (f : Filter)
  | array (f : Filter)
  | object (keys values : List Filter)
  | binary (op : BinaryOp) (f g : Filter)
  /-- `f as $x | g`. -/
  | bind (f : Filter) (x : String) (g : Filter)
  | reduce (f : Filter) (x : String) (init next : Filter)
  | foreach (f : Filter) (x : String) (init next extract : Filter)
  | ite (condition yes no : Filter)
  /-- `def name(params): body; rest`. -/
  | define (name : String) (params : List String) (body rest : Filter)

/-- What is called, with the number of its arguments. -/
abbrev Callee := String × ℕ

namespace Filter

mutual

/-- What is called and not defined. A definition is known in its own body and in what follows. -/
def undefined (scope : List Callee) : Filter → List Callee
  | identity | literal _ => []
  | var name => if (name, 0) ∈ scope then [] else [(name, 0)]
  | call name args =>
    (if (name, args.length) ∈ scope then [] else [(name, args.length)]) ++ undefinedAll scope args
  | path f key => undefined scope f ++ undefined scope key
  | slice f start stop => undefined scope f ++ undefined scope start ++ undefined scope stop
  | each f | attempt f | array f => undefined scope f
  | object keys values => undefinedAll scope keys ++ undefinedAll scope values
  | binary _ f g => undefined scope f ++ undefined scope g
  | bind f x g => undefined scope f ++ undefined ((x, 0) :: scope) g
  | reduce f x init next =>
    undefined scope f ++ undefined scope init ++ undefined ((x, 0) :: scope) next
  | foreach f x init next extract =>
    undefined scope f ++ undefined scope init ++ undefined ((x, 0) :: scope) next ++
      undefined ((x, 0) :: scope) extract
  | ite condition yes no =>
    undefined scope condition ++ undefined scope yes ++ undefined scope no
  | define name params body rest =>
    undefined (params.map (·, 0) ++ (name, params.length) :: scope) body ++
      undefined ((name, params.length) :: scope) rest

def undefinedAll (scope : List Callee) : List Filter → List Callee
  | [] => []
  | f :: fs => undefined scope f ++ undefinedAll scope fs

end

end Filter

/-! ### The prelude -/

/-- `register_natives`. -/
def natives : List Callee :=
  [("length", 0), ("keys", 0), ("keys_unsorted", 0), ("values", 0), ("type", 0), ("empty", 0),
    ("error", 0), ("not", 0), ("null", 0), ("sort", 0), ("reverse", 0), ("unique", 0),
    ("flatten", 0), ("add", 0), ("min", 0), ("max", 0), ("tonumber", 0), ("tojson", 0),
    ("fromjson", 0), ("to_entries", 0), ("from_entries", 0), ("explode", 0), ("implode", 0),
    ("paths", 0), ("floor", 0), ("ceil", 0), ("round", 0), ("sqrt", 0), ("fabs", 0), ("nan", 0),
    ("infinite", 0), ("isinfinite", 0), ("isnan", 0), ("isnormal", 0), ("debug", 0),
    ("builtins", 0), ("has", 1), ("contains", 1), ("inside", 1), ("split", 1), ("join", 1),
    ("test", 1), ("match", 1), ("startswith", 1), ("endswith", 1), ("ltrimstr", 1),
    ("rtrimstr", 1), ("getpath", 1), ("indices", 1), ("range", 1), ("sort_by_key", 1),
    ("_group_by_sorted", 0), ("range", 2)]

structure Definition where
  name : String
  params : List String
  body : Filter

namespace Prelude

open Arbeiterfarm.Tools.Jq.Filter BinaryOp

/-- A call without arguments. -/
def run (name : String) : Filter := .call name []

/-- `.name` of the input. -/
def field (name : String) : Filter := .path .identity (.literal name)

def pipe (f g : Filter) : Filter := .binary .pipe f g

/-- `if lo <= . and . <= hi then op else . end` as the two functions on characters have it. -/
def shiftBetween (lo hi : String) (op : BinaryOp) : Filter :=
  .ite (.binary .and (.binary .greaterEqual .identity (.literal lo))
      (.binary .lessEqual .identity (.literal hi)))
    (.binary op .identity (.literal "32")) .identity

/-- `reduce .[] as $x (null; if . == null then $x elif ($x | f) op (. | f) then $x else . end)`. -/
def extreme (op : BinaryOp) : Filter :=
  .reduce (.each .identity) "$x" (run "null")
    (.ite (.binary .equal .identity (run "null")) (.var "$x")
      (.ite (.binary op (pipe (.var "$x") (run "f")) (pipe .identity (run "f"))) (.var "$x")
        .identity))

/-- Each definition with its text. -/
def lines : List (String × Definition) :=
  [("def select(f): if f then . else empty end;",
      ⟨"select", ["f"], .ite (run "f") .identity (run "empty")⟩),
    ("def map(f): [.[] | f];",
      ⟨"map", ["f"], .array (pipe (.each .identity) (run "f"))⟩),
    ("def map_values(f): .[] |= f;",
      ⟨"map_values", ["f"], .binary .update (.each .identity) (run "f")⟩),
    ("def with_entries(f): to_entries | map(f) | from_entries;",
      ⟨"with_entries", ["f"],
        pipe (run "to_entries") (pipe (.call "map" [run "f"]) (run "from_entries"))⟩),
    ("def recurse(f): def r: ., (f | r); r;",
      ⟨"recurse", ["f"],
        .define "r" [] (.binary .comma .identity (pipe (run "f") (run "r"))) (run "r")⟩),
    ("def recurse: recurse(.[]?);",
      ⟨"recurse", [], .call "recurse" [.attempt (.each .identity)]⟩),
    ("def limit(n; f): foreach f as $x (n; . - 1; $x, if . <= 0 then error else empty end);",
      ⟨"limit", ["n", "f"],
        .foreach (run "f") "$x" (run "n") (.binary .subtract .identity (.literal "1"))
          (.binary .comma (.var "$x")
            (.ite (.binary .lessEqual .identity (.literal "0")) (run "error") (run "empty")))⟩),
    ("def first(f): limit(1; f);",
      ⟨"first", ["f"], .call "limit" [.literal "1", run "f"]⟩),
    ("def last(f): reduce f as $x (null; $x);",
      ⟨"last", ["f"], .reduce (run "f") "$x" (run "null") (.var "$x")⟩),
    ("def isempty(f): first((f | false), true);",
      ⟨"isempty", ["f"], .call "first" [.binary .comma (pipe (run "f") (.literal "false"))
        (.literal "true")]⟩),
    ("def any(f): reduce (.[] | f) as $x (false; . or $x);",
      ⟨"any", ["f"], .reduce (pipe (.each .identity) (run "f")) "$x" (.literal "false")
        (.binary .or .identity (.var "$x"))⟩),
    ("def all(f): reduce (.[] | f) as $x (true; . and $x);",
      ⟨"all", ["f"], .reduce (pipe (.each .identity) (run "f")) "$x" (.literal "true")
        (.binary .and .identity (.var "$x"))⟩),
    ("def any: any(. == true);",
      ⟨"any", [], .call "any" [.binary .equal .identity (.literal "true")]⟩),
    ("def all: all(. == true);",
      ⟨"all", [], .call "all" [.binary .equal .identity (.literal "true")]⟩),
    ("def in(xs): . as $x | xs | has($x);",
      ⟨"in", ["xs"], .bind .identity "$x" (pipe (run "xs") (.call "has" [.var "$x"]))⟩),
    ("def del(f): delpaths([path(f)]);",
      ⟨"del", ["f"], .call "delpaths" [.array (.call "path" [run "f"])]⟩),
    ("def from_entries: map(\x7b(.key // .name // \"key\"): .value\x7d) | add // \x7b\x7d;",
      ⟨"from_entries", [],
        pipe
          (.call "map" [.object [.binary .alternative (field "key")
            (.binary .alternative (field "name") (.literal "key"))] [field "value"]])
          (.binary .alternative (run "add") (.object [] []))⟩),
    ("def to_entries: [keys[] as $k | \x7bkey: $k, value: .[$k]\x7d];",
      ⟨"to_entries", [],
        .array (.bind (.each (run "keys")) "$k" (.object [.literal "key", .literal "value"]
          [.var "$k", .path .identity (.var "$k")]))⟩),
    ("def ascii: explode | .[0];",
      ⟨"ascii", [], pipe (run "explode") (.path .identity (.literal "0"))⟩),
    ("def leaf_paths: paths | select(getpath(.) | type != \"array\" and type != \"object\");",
      ⟨"leaf_paths", [],
        pipe (run "paths") (.call "select" [pipe (.call "getpath" [.identity])
          (.binary .and (.binary .unequal (run "type") (.literal "array"))
            (.binary .unequal (run "type") (.literal "object")))])⟩),
    ("def index(s): indices(s) | .[0];",
      ⟨"index", ["s"], pipe (.call "indices" [run "s"]) (.path .identity (.literal "0"))⟩),
    ("def rindex(s): indices(s) | .[-1];",
      ⟨"rindex", ["s"], pipe (.call "indices" [run "s"]) (.path .identity (.literal "-1"))⟩),
    ("def scan(re): [match(re; \"g\")] | .[].string;",
      ⟨"scan", ["re"],
        pipe (.array (.call "match" [run "re", .literal "g"]))
          (.path (.each .identity) (.literal "string"))⟩),
    ("def splits(re): split(re) | .[];",
      ⟨"splits", ["re"], pipe (.call "split" [run "re"]) (.each .identity)⟩),
    ("def sub(re; s): . as $in | [match(re)] | if length > 0 then .[0] | $in[:.offset] + s + " ++
        "$in[.offset+.length:] else $in end;",
      ⟨"sub", ["re", "s"],
        .bind .identity "$in" (pipe (.array (.call "match" [run "re"]))
          (.ite (.binary .greater (run "length") (.literal "0"))
            (pipe (.path .identity (.literal "0"))
              (.binary .add
                (.binary .add (.slice (.var "$in") (run "null") (field "offset")) (run "s"))
                (.slice (.var "$in") (.binary .add (field "offset") (field "length"))
                  (run "null"))))
            (.var "$in")))⟩),
    ("def gsub(re; s): split(re) | join(s);",
      ⟨"gsub", ["re", "s"], pipe (.call "split" [run "re"]) (.call "join" [run "s"])⟩),
    ("def ascii_downcase: explode | map(if . >= 65 and . <= 90 then . + 32 else . end) | implode;",
      ⟨"ascii_downcase", [], pipe (run "explode")
        (pipe (.call "map" [shiftBetween "65" "90" .add]) (run "implode"))⟩),
    ("def ascii_upcase: explode | map(if . >= 97 and . <= 122 then . - 32 else . end) | implode;",
      ⟨"ascii_upcase", [], pipe (run "explode")
        (pipe (.call "map" [shiftBetween "97" "122" .subtract]) (run "implode"))⟩),
    ("def sort_by(f): group_by(f) | map(sort_by_key(f)) | add;",
      ⟨"sort_by", ["f"], pipe (.call "group_by" [run "f"])
        (pipe (.call "map" [.call "sort_by_key" [run "f"]]) (run "add"))⟩),
    ("def unique_by(f): group_by(f) | map(.[0]);",
      ⟨"unique_by", ["f"], pipe (.call "group_by" [run "f"])
        (.call "map" [.path .identity (.literal "0")])⟩),
    ("def min_by(f): reduce .[] as $x (null; if . == null then $x elif ($x | f) < (. | f) " ++
        "then $x else . end);",
      ⟨"min_by", ["f"], extreme .less⟩),
    ("def max_by(f): reduce .[] as $x (null; if . == null then $x elif ($x | f) > (. | f) " ++
        "then $x else . end);",
      ⟨"max_by", ["f"], extreme .greater⟩),
    ("def group_by(f): [.[] | [., (f)]] | sort_by_key(.[1]) | _group_by_sorted | map(map(.[0]));",
      ⟨"group_by", ["f"],
        pipe
          (.array (pipe (.each .identity) (.array (.binary .comma .identity (run "f")))))
          (pipe (.call "sort_by_key" [.path .identity (.literal "1")])
            (pipe (run "_group_by_sorted")
              (.call "map" [.call "map" [.path .identity (.literal "0")]])))⟩)]

end Prelude

/-- `JQ_PRELUDE`. -/
def jqPrelude : String := "\n" ++ String.join (Prelude.lines.map fun line => line.1 ++ "\n")

def preludeDefs : List Definition := Prelude.lines.map Prod.snd

/-- The definitions stand before the filter. -/
def withDefs : List Definition → Filter → Filter
  | [], f => f
  | d :: defs, f => .define d.name d.params d.body (withDefs defs f)

/-! ### What is not defined -/

/-- What a list of definitions calls before it is defined. -/
def undefinedIn : List Callee → List Definition → List Callee
  | _, [] => []
  | scope, d :: defs =>
    Filter.undefined (d.params.map (·, 0) ++ (d.name, d.params.length) :: scope) d.body ++
      undefinedIn ((d.name, d.params.length) :: scope) defs

lemma mem_undefined_withDefs {callee : Callee} {scope : List Callee} {defs : List Definition}
    (h : callee ∈ undefinedIn scope defs) (f : Filter) :
    callee ∈ (withDefs defs f).undefined scope := by
  induction defs generalizing scope with
  | nil => cases h
  | cons d defs ih =>
    rw [undefinedIn, List.mem_append] at h
    rw [withDefs, Filter.undefined, List.mem_append]
    exact h.imp_right ih

/-- `sort_by` stands before `group_by`, which it calls. -/
lemma group_by_mem_undefinedIn : ("group_by", 1) ∈ undefinedIn natives preludeDefs := by
  decide +kernel

/-- With the prelude in front, no expression has all its functions. -/
theorem undefined_withDefs_prelude (f : Filter) :
    ("group_by", 1) ∈ (withDefs preludeDefs f).undefined natives :=
  mem_undefined_withDefs group_by_mem_undefinedIn f

end Arbeiterfarm.Tools.Jq
