/-!
# Quoting by doubling

A quoted text stands between two quotes, and a quote inside it is written twice.
-/

namespace PipelineSql.Quoted

/-- The characters between the quotes. -/
def double (q : Char) : List Char → List Char
  | [] => []
  | c :: cs => if c = q then q :: q :: double q cs else c :: double q cs

/-- A text between quotes `q`. -/
def encode (q : Char) (s : String) : String :=
  String.ofList (q :: (double q s.toList ++ [q]))

end PipelineSql.Quoted
