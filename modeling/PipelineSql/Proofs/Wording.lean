import Mathlib.Tactic.Lemma
import PipelineSql.Sql.Fragment

/-!
# Wordings

The fixed texts that statements are made of, besides names, numbers, strings and brackets. What a
pipeline supplies never stands as text of its own, since it is not among these.
-/

namespace PipelineSql

/-- The texts that open a window. -/
def windowWords : List String :=
  [" OVER ", "ROW_NUMBER() OVER "]

/-- The text is one of the fixed texts of the statements of every release, and opens no window. -/
class inductive Common : String → Prop where
  -- Punctuation.
  | empty : Common ""
  | blank : Common " "
  | comma : Common "," | commaBlank : Common ", "
  -- Operators between values.
  | plus : Common " + " | plusOne : Common " + 1"
  | minus : Common " - " | minusOne : Common " - 1"
  | times : Common " * " | timesThousand : Common " * 1000"
  | divide : Common " / "
  | concat : Common " || "
  -- Conditions.
  | eq : Common " = " | ne : Common " <> "
  | gt : Common " > " | gte : Common " >= "
  | lt : Common " < " | lte : Common " <= "
  | isIn : Common " IN " | notIn : Common " NOT IN "
  | isNull : Common " IS NULL" | isNotNull : Common " IS NOT NULL"
  | and : Common " AND " | or : Common " OR " | not : Common "NOT "
  | existsRow : Common "EXISTS "
  | always : Common "1 = 1" | never : Common "1 = 0"
  -- Constants.
  | zero : Common "0" | one : Common "1" | minusOneValue : Common "-1"
  | seven : Common "7" | ten : Common "10" | thousand : Common "1000"
  | null : Common "NULL"
  | trueText : Common "'true'" | falseText : Common "'false'"
  | now : Common "SYSTIMESTAMP"
  | random : Common "DBMS_RANDOM.VALUE"
  -- Choices.
  | choice : Common "CASE" | choiceEnd : Common " END"
  | whenTest : Common " WHEN " | thenValue : Common " THEN " | elseValue : Common " ELSE "
  -- Functions on numbers.
  | abs : Common "ABS" | ceil : Common "CEIL" | exp : Common "EXP" | floor : Common "FLOOR"
  | greatest : Common "GREATEST" | least : Common "LEAST" | ln : Common "LN" | log : Common "LOG"
  | mod : Common "MOD" | power : Common "POWER" | round : Common "ROUND" | sqrt : Common "SQRT"
  | trunc : Common "TRUNC"
  -- Functions on text.
  | instr : Common "INSTR" | length : Common "LENGTH" | lower : Common "LOWER"
  | ltrim : Common "LTRIM" | regexpInstr : Common "REGEXP_INSTR"
  | regexpLike : Common "REGEXP_LIKE" | regexpSubstr : Common "REGEXP_SUBSTR"
  | replace : Common "REPLACE" | rtrim : Common "RTRIM" | substr : Common "SUBSTR"
  | trim : Common "TRIM" | upper : Common "UPPER"
  -- Functions on values of any type.
  | coalesce : Common "COALESCE" | decode : Common "DECODE" | nvl : Common "NVL"
  | toBinaryDouble : Common "TO_BINARY_DOUBLE" | toChar : Common "TO_CHAR"
  | toNumber : Common "TO_NUMBER" | toTimestamp : Common "TO_TIMESTAMP"
  | toTimestampTz : Common "TO_TIMESTAMP_TZ" | validateConversion : Common "VALIDATE_CONVERSION"
  -- Functions on JSON, and the words between their arguments.
  | jsonArray : Common "JSON_ARRAY" | jsonArrayAgg : Common "JSON_ARRAYAGG"
  | jsonEqual : Common "JSON_EQUAL" | jsonExists : Common "JSON_EXISTS"
  | jsonMergePatch : Common "JSON_MERGEPATCH" | jsonObject : Common "JSON_OBJECT"
  | jsonObjectAgg : Common "JSON_OBJECTAGG" | jsonQuery : Common "JSON_QUERY"
  | jsonTable : Common "JSON_TABLE" | jsonValue : Common "JSON_VALUE"
  | formatJson : Common " FORMAT JSON" | returning : Common " RETURNING "
  | arrayWrapper : Common " WITH ARRAY WRAPPER" | columns : Common " COLUMNS "
  | key : Common "KEY " | value : Common " VALUE "
  | setMember : Common "SET " | removeMember : Common "REMOVE "
  -- Methods of dot notation.
  | stringMethod : Common ".string()" | numberMethod : Common ".number()"
  | dateMethod : Common ".date()" | timestampMethod : Common ".timestamp()"
  -- Types.
  | varchar : Common "VARCHAR2(4000)" | shortVarchar : Common "VARCHAR2(5)"
  | number : Common "NUMBER" | date : Common "DATE" | timestamp : Common "TIMESTAMP"
  | clob : Common "CLOB"
  | asNumber : Common " AS NUMBER" | asBinaryDouble : Common " AS BINARY_DOUBLE"
  | asTimestamp : Common " AS TIMESTAMP WITH TIME ZONE"
  -- Columns of expanded arrays.
  | ordinality : Common "FOR ORDINALITY"
  | jsonTextElement : Common "VARCHAR2(4000) FORMAT JSON PATH '$'"
  | textElement : Common "VARCHAR2(4000) PATH '$'"
  | numberElement : Common "NUMBER PATH '$'"
  | pairKey : Common "VARCHAR2(4000) PATH '$.k'" | pairValue : Common "VARCHAR2(4000) PATH '$.v'"
  | pairFirst : Common "VARCHAR2(4000) PATH '$[0]'"
  | pairSecond : Common "VARCHAR2(4000) PATH '$[1]'"
  -- Parts of dates.
  | extract : Common "EXTRACT"
  | year : Common "YEAR" | month : Common "MONTH" | day : Common "DAY"
  | hour : Common "HOUR" | minute : Common "MINUTE" | second : Common "SECOND"
  -- Aggregates and window functions.
  | avg : Common "AVG" | max : Common "MAX" | min : Common "MIN" | sum : Common "SUM"
  | stddevPop : Common "STDDEV_POP" | stddevSamp : Common "STDDEV_SAMP"
  | count : Common "COUNT(*)" | countTimes : Common "COUNT(*) * "
  | listagg : Common "LISTAGG" | withinGroup : Common " WITHIN GROUP "
  | keepFirst : Common " KEEP (DENSE_RANK FIRST ORDER BY ROWNUM)"
  | keepLast : Common " KEEP (DENSE_RANK LAST ORDER BY ROWNUM)"
  | denseRank : Common "DENSE_RANK()" | rank : Common "RANK()"
  | rowNumber : Common "ROW_NUMBER()"
  | firstValue : Common "FIRST_VALUE" | lastValue : Common "LAST_VALUE"
  | lag : Common "LAG" | lead : Common "LEAD" | ntile : Common "NTILE"
  | partition : Common "PARTITION BY "
  | rows : Common "ROWS " | range : Common "RANGE " | between : Common "BETWEEN "
  | unboundedPreceding : Common "UNBOUNDED PRECEDING"
  | unboundedFollowing : Common "UNBOUNDED FOLLOWING"
  | preceding : Common " PRECEDING" | currentRow : Common "CURRENT ROW"
  | following : Common " FOLLOWING"
  -- Queries inside expressions.
  | select : Common "SELECT " | selectCount : Common "SELECT COUNT(*) FROM "
  | distinct : Common "DISTINCT " | fromRows : Common " FROM " | whereTest : Common " WHERE "
  | groupBy : Common " GROUP BY " | orderBy : Common " ORDER BY " | unionAll : Common " UNION ALL "
  -- Clauses of queries.
  | selectClause : Common "SELECT" | selectDistinctClause : Common "SELECT DISTINCT"
  | fromClause : Common "FROM " | whereClause : Common "WHERE "
  | groupByClause : Common "GROUP BY " | havingClause : Common "HAVING "
  | orderByClause : Common "ORDER BY "
  | ascending : Common " ASC" | descending : Common " DESC"
  | nullsFirst : Common " NULLS FIRST" | nullsLast : Common " NULLS LAST"
  | fetchFirst : Common "FETCH FIRST " | offset : Common "OFFSET "
  | offsetRows : Common " ROWS" | rowsOnly : Common " ROWS ONLY"
  | fetchNext : Common " ROWS FETCH NEXT "
  | asLabel : Common " AS " | asSource : Common " AS src, "
  | innerJoin : Common "INNER JOIN " | leftJoin : Common "LEFT OUTER JOIN "
  | crossJoin : Common "CROSS JOIN " | onTest : Common " ON "
  | dual : Common "DUAL"
  | union : Common "UNION" | intersect : Common "INTERSECT" | except : Common "MINUS"
  | all : Common " ALL"
  -- Named subqueries.
  | withClause : Common "WITH " | withRecursiveClause : Common "WITH RECURSIVE "
  | cycleClause : Common "CYCLE " | cycleSet : Common " SET " | cycleTo : Common " TO "
  | cycleDefault : Common " DEFAULT "
  -- Statements that write.
  | insertInto : Common "INSERT INTO " | mergeInto : Common "MERGE INTO "
  | usingClause : Common "USING " | onClause : Common "ON "
  | whenMatched : Common "WHEN MATCHED THEN " | whenNotMatched : Common "WHEN NOT MATCHED THEN "
  | update : Common "UPDATE SET " | insert : Common "INSERT " | values : Common " VALUES "

namespace Common

attribute [instance] empty blank comma commaBlank plus plusOne minus minusOne times timesThousand
  divide concat eq ne gt gte lt lte isIn notIn isNull isNotNull and or not existsRow always never
  zero one minusOneValue seven ten thousand null trueText falseText now random choice choiceEnd
  whenTest thenValue elseValue abs ceil exp floor greatest least ln log mod power round sqrt trunc
  instr length lower ltrim regexpInstr regexpLike regexpSubstr replace rtrim substr trim upper
  coalesce decode nvl toBinaryDouble toChar toNumber toTimestamp toTimestampTz validateConversion
  jsonArray jsonArrayAgg jsonEqual jsonExists jsonMergePatch jsonObject jsonObjectAgg jsonQuery
  jsonTable jsonValue formatJson returning arrayWrapper columns key value setMember removeMember
  stringMethod numberMethod dateMethod timestampMethod varchar shortVarchar number date timestamp
  clob asNumber asBinaryDouble asTimestamp ordinality jsonTextElement textElement numberElement
  pairKey pairValue pairFirst pairSecond extract year month day hour minute second avg max min sum
  stddevPop stddevSamp count countTimes listagg withinGroup keepFirst keepLast denseRank rank
  rowNumber firstValue lastValue lag lead ntile partition rows range
  between unboundedPreceding unboundedFollowing preceding currentRow following select selectCount
  distinct fromRows whereTest groupBy orderBy unionAll selectClause selectDistinctClause fromClause
  whereClause groupByClause havingClause orderByClause ascending descending nullsFirst nullsLast
  fetchFirst offset offsetRows rowsOnly fetchNext asLabel asSource innerJoin leftJoin crossJoin
  onTest dual union intersect except all withClause withRecursiveClause cycleClause cycleSet cycleTo
  cycleDefault insertInto mergeInto usingClause onClause whenMatched whenNotMatched update insert
  values

instance {c : Prop} [Decidable c] {s t : String} [Common s] [Common t] :
    Common (if c then s else t) := by
  split <;> exact inferInstance

end Common

namespace Dialect

/-- The text is one of the fixed texts of the statements of a release, and opens no window. -/
inductive Says (d : Dialect) : String → Prop where
  | common {s} : Common s → Says d s
  | jsonTransform : d.hasJsonTransform = true → Says d "JSON_TRANSFORM"
  | json : d.hasJsonType = true → Says d "JSON"
  | jsonElement : d.hasJsonType = true → Says d "JSON PATH '$'"
  | boolean : d.hasBoolean = true → Says d "BOOLEAN"
  | booleanMethod : d.hasBoolean = true → Says d ".boolean()"
  | trueWord : d.hasBoolean = true → Says d "TRUE"
  | falseWord : d.hasBoolean = true → Says d "FALSE"

lemma says_returnType (d : Dialect) (type : JsonType) : d.Says (d.returnType type) := by
  cases type with
  | varchar => exact .common .varchar
  | number => exact .common .number
  | date => exact .common .date
  | timestamp => exact .common .timestamp
  | boolean =>
    rw [returnType]
    split
    · next h => exact .boolean h
    · exact .common .shortVarchar
  | json =>
    rw [returnType]
    split
    · next h => exact .json h
    · exact .common .clob

lemma says_bool (d : Dialect) (b : Bool) : d.Says (d.bool b) := by
  unfold bool
  split
  · next h => exact .trueWord h
  · next h => exact .falseWord h
  · exact .common .trueText
  · exact .common .falseText

lemma says_elementDefinition (d : Dialect) : d.Says d.elementDefinition := by
  unfold elementDefinition
  split
  · next h => exact .jsonElement h
  · exact .common .jsonTextElement

/-- The text is one of the fixed texts of the statements of a release. -/
inductive Writes (d : Dialect) : String → Prop where
  | said {s} : d.Says s → Writes d s
  | window {s} : s ∈ windowWords → Writes d s

end Dialect

/-- The text is one of the fixed texts of statements. -/
class Wording (s : String) : Prop where
  written : ∃ d : Dialect, d.Writes s

lemma Dialect.Says.wording {d : Dialect} {s : String} (h : d.Says s) : Wording s :=
  ⟨d, .said h⟩

lemma wording_of_mem_windowWords {s : String} (h : s ∈ windowWords) : Wording s :=
  ⟨.oracle19c, .window h⟩

instance {s : String} [h : Common s] : Wording s :=
  (Dialect.Says.common (d := .oracle19c) h).wording

instance (d : Dialect) (b : Bool) : Wording (d.bool b) :=
  (d.says_bool b).wording

mutual

/-- The texts of a piece, besides the brackets. -/
def Piece.texts : Piece → List String
  | .token (.text s) => [s]
  | .token _ => []
  | .group _ body => Piece.allTexts body

/-- The texts of a sequence of pieces. -/
def Piece.allTexts : List Piece → List String
  | [] => []
  | p :: ps => p.texts ++ Piece.allTexts ps

end

lemma Piece.allTexts_append (ps qs : List Piece) :
    allTexts (ps ++ qs) = allTexts ps ++ allTexts qs := by
  induction ps with
  | nil => rfl
  | cons p ps ih => simp [allTexts, ih]

namespace Fragment

/-- The texts of a fragment, besides the brackets. -/
def texts (f : Fragment) : List String :=
  Piece.allTexts f

/-- Is every text of the fragment one of the given? -/
def Spells (P : String → Prop) (f : Fragment) : Prop :=
  ∀ s ∈ f.texts, P s

variable {P : String → Prop} {f g : Fragment}

lemma spells_nil : Spells P [] :=
  nofun

lemma Spells.append (hf : f.Spells P) (hg : g.Spells P) : Spells P (f ++ g) := by
  intro s hs
  rw [texts, Piece.allTexts_append] at hs
  exact (List.mem_append.1 hs).elim (hf s) (hg s)

lemma spells_text {s : String} (h : P s) : Spells P [.token (.text s)] := by
  simpa [Spells, texts, Piece.allTexts, Piece.texts] using h

/-- A token that is no text has none. -/
lemma spells_token {t : Token} (h : ∀ s, t ≠ .text s) : Spells P [.token t] := by
  cases t with
  | text s => exact absurd rfl (h s)
  | _ => exact nofun

lemma Spells.group {b : Bracket} (h : f.Spells P) : Spells P [.group b f] := by
  intro s hs
  refine h s ?_
  simpa [texts, Piece.allTexts, Piece.texts] using hs

end Fragment

end PipelineSql
