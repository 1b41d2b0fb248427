import TypedQuery.Session.Command

/-!
# Helper functions of the server

The functions that generated SQL relies on: two that escape patterns, and one that appends to the
array at a path of a document, creating the array when the path is missing.  Installing them
again changes nothing.
-/

namespace TypedQuery
namespace Bootstrap

def escapeLike : String :=
  "CREATE OR REPLACE FUNCTION escape_like(value text) RETURNS text\n" ++
  "    LANGUAGE sql IMMUTABLE STRICT PARALLEL SAFE\n" ++
  "    AS $$ SELECT replace(replace(replace(value, '\\', '\\\\'), '%', '\\%'), '_', '\\_') $$"

def escapeRegexp : String :=
  "CREATE OR REPLACE FUNCTION escape_regexp(value text) RETURNS text\n" ++
  "    LANGUAGE sql IMMUTABLE STRICT PARALLEL SAFE\n" ++
  "    AS $$ SELECT regexp_replace(value, '([.^$*+?()\\[\\]\x7b\x7d|\\\\-])', '\\\\\\1', 'g') $$"

def appendAtPath : String :=
  "CREATE OR REPLACE FUNCTION jsonb_append_at_path(target jsonb, path text[], value jsonb)\n" ++
  "    RETURNS jsonb\n" ++
  "    LANGUAGE sql IMMUTABLE PARALLEL SAFE\n" ++
  "    AS $$ SELECT jsonb_set(\n" ++
  "        COALESCE(target, '\x7b\x7d'::jsonb),\n" ++
  "        path,\n" ++
  "        COALESCE(target #> path, '[]'::jsonb) || jsonb_build_array(value),\n" ++
  "        true\n" ++
  "    ) $$"

def command : Command := ⟨[escapeLike, escapeRegexp, appendAtPath].map Fragment.empty.text⟩

end Bootstrap
end TypedQuery
