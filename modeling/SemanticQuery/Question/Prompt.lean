/-
This file builds the prompts that ask for a document.
-/

import SemanticQuery.Query.Keyword

namespace SemanticQuery.Prompt

/-- The instructions describe the document and list the keywords. -/
def instructions : String := "\n".intercalate [
  "You convert natural-language questions about a relational database into a semantic query " ++
    "document.",
  "",
  "Reply with exactly one JSON object and nothing else, using these fields:",
  "\x7b",
  "    \"tables\": [\"table1\", \"table2\"],",
  "    \"columns\": [\"column1\", \"column2\", \"FUNCTION(column) as alias\"],",
  "    \"conditions\": [",
  "        \x7b\"column\": \"column\", \"operator\": \"operator\", \"value\": \"value\", " ++
    "\"table\": \"table\"\x7d",
  "    ],",
  "    \"aggregations\": [",
  "        \x7b\"function\": \"FUNCTION\", \"column\": \"column\", \"alias\": \"alias\"\x7d",
  "    ],",
  "    \"joins\": [",
  "        \x7b\"type\": \"JOIN TYPE\", \"table1\": \"table1\", \"table2\": \"table2\", " ++
    "\"condition\": \"join condition\"\x7d",
  "    ],",
  "    \"order_by\": [\x7b\"column\": \"column\", \"direction\": \"ASC or DESC\"\x7d],",
  "    \"group_by\": [\"column\"],",
  "    \"limit\": null",
  "\x7d",
  "",
  "Supported operators: " ++ Keyword.enumerate Operator,
  "Supported aggregation functions: " ++ Keyword.enumerate AggregateFunction,
  "Supported join types: " ++ Keyword.enumerate JoinType,
  "",
  "Example question: \"total order amount per user\"",
  "\x7b",
  "    \"tables\": [\"users\", \"orders\"],",
  "    \"columns\": [\"users.id\", \"SUM(orders.amount) as total_amount\"],",
  "    \"conditions\": [],",
  "    \"aggregations\": [\x7b\"function\": \"SUM\", \"column\": \"orders.amount\", " ++
    "\"alias\": \"total_amount\"\x7d],",
  "    \"joins\": [\x7b\"type\": \"INNER\", \"table1\": \"users\", \"table2\": \"orders\", " ++
    "\"condition\": \"users.id = orders.user_id\"\x7d],",
  "    \"order_by\": [],",
  "    \"group_by\": [\"users.id\"],",
  "    \"limit\": null",
  "\x7d"]

/-- A blank schema is not mentioned. -/
def schemaPart (schema : Option String) : String :=
  let trimmed := Text.trim (schema.getD "")
  if trimmed = "" then "" else "\n\nDatabase schema:\n" ++ trimmed

/-- The schema and the question follow the instructions. -/
def tail (question : String) (schema : Option String) : String :=
  schemaPart schema ++ "\n\nQuestion: " ++ Text.trim question

/-- The whole prompt is sent as one text. -/
def text (question : String) (schema : Option String) : String :=
  instructions ++ tail question schema

end SemanticQuery.Prompt
