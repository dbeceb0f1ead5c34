/-!
# The configuration scaffold

A configuration file that sets every key to its default and says what it is for.
-/
namespace Mson.Configuration

/-- The name under which the scaffold is written unless another is asked for. -/
def defaultFileName : String := "render-config.yaml"

def scaffold : String :=
  "\n".intercalate [
    "# Render configuration for mson-render.",
    "# Every key is optional; the values below are the defaults.",
    "",
    "output:",
    "  # Indentation used when serializing schemas, example bodies and the result document.",
    "  indent: 2",
    "  # URI attached as \"$schema\" to every generated schema.",
    "  schema_uri: \"http://json-schema.org/draft-04/schema#\"",
    "",
    "rendering:",
    "  # Generate a JSON Schema for each request/response data structure.",
    "  schemas: true",
    "  # Generate an example body for each request/response data structure.",
    "  examples: true",
    "  # Keep schemas already present in the API description instead of regenerating them.",
    "  keep_provided_schemas: true",
    "  # Report payloads that reach a self-referencing type instead of rendering them.",
    "  skip_cyclic_types: true",
    ""]

end Mson.Configuration
