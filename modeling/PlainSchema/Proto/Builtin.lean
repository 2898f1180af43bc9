import PlainSchema.Proto.Declaration
import PlainSchema.Proto.FieldNumber

/-!
# Built-in schema files

The schema of schema files itself, the Plain options that extend it, and the request and
response of a generator.  A request is decoded by these declarations, so that the options of its
files are known.
-/

namespace PlainSchema

open Proto

/-! ## Short forms -/

private def one (name : String) (number : Int) (type : Scalar) : FieldDecl :=
  { name, number, kind := .scalar type }

private def many (name : String) (number : Int) (type : Scalar) : FieldDecl :=
  { name, number, kind := .scalar type, label := .repeated }

private def must (name : String) (number : Int) (type : Scalar) : FieldDecl :=
  { name, number, kind := .scalar type, label := .required }

private def ref (name : String) (number : Int) (type : String) : FieldDecl :=
  { name, number, kind := .message, typeRef := some type }

private def refs (name : String) (number : Int) (type : String) : FieldDecl :=
  { name, number, kind := .message, label := .repeated, typeRef := some type }

private def choice (name : String) (number : Int) (type : String) : FieldDecl :=
  { name, number, kind := .enum, typeRef := some type }

private def proto (name : String) : String := ".google.protobuf." ++ name

/-- The number of the field that holds options as names and values in all options. -/
def uninterpretedNumber : Nat := 999

private def uninterpreted : FieldDecl :=
  refs "uninterpreted_option" uninterpretedNumber (proto "UninterpretedOption")

private def open1000 : List (Int × Int) := [(1000, maxFieldNumber + 1)]

/-! ## Schema files -/

private def fileMessages : List MessageDecl :=
  [{ name := "FileDescriptorSet", fields := [refs "file" 1 (proto "FileDescriptorProto")] },
    { name := "FileDescriptorProto"
      fields := [one "name" 1 .string, one "package" 2 .string, many "dependency" 3 .string,
        many "public_dependency" 10 .int32, many "weak_dependency" 11 .int32,
        refs "message_type" 4 (proto "DescriptorProto"),
        refs "enum_type" 5 (proto "EnumDescriptorProto"),
        refs "service" 6 (proto "ServiceDescriptorProto"),
        refs "extension" 7 (proto "FieldDescriptorProto"),
        ref "options" 8 (proto "FileOptions"),
        ref "source_code_info" 9 (proto "SourceCodeInfo"), one "syntax" 12 .string,
        one "edition" 13 .string] }]

private def messageMessages : List MessageDecl :=
  [{ name := "DescriptorProto"
     fields := [one "name" 1 .string, refs "field" 2 (proto "FieldDescriptorProto"),
       refs "extension" 6 (proto "FieldDescriptorProto"),
       refs "nested_type" 3 (proto "DescriptorProto"),
       refs "enum_type" 4 (proto "EnumDescriptorProto"),
       refs "extension_range" 5 (proto "DescriptorProto.ExtensionRange"),
       refs "oneof_decl" 8 (proto "OneofDescriptorProto"),
       ref "options" 7 (proto "MessageOptions"),
       refs "reserved_range" 9 (proto "DescriptorProto.ReservedRange"),
       many "reserved_name" 10 .string]
     messages := [
       { name := "ExtensionRange"
         fields := [one "start" 1 .int32, one "end" 2 .int32,
           ref "options" 3 (proto "ExtensionRangeOptions")] },
       { name := "ReservedRange", fields := [one "start" 1 .int32, one "end" 2 .int32] }] },
    { name := "ExtensionRangeOptions", fields := [uninterpreted], extensionRanges := open1000 },
    { name := "FieldDescriptorProto"
      fields := [one "name" 1 .string, one "number" 3 .int32,
        choice "label" 4 (proto "FieldDescriptorProto.Label"),
        choice "type" 5 (proto "FieldDescriptorProto.Type"), one "type_name" 6 .string,
        one "extendee" 2 .string, one "default_value" 7 .string, one "oneof_index" 9 .int32,
        one "json_name" 10 .string, ref "options" 8 (proto "FieldOptions"),
        one "proto3_optional" 17 .bool]
      enums := [
        { name := "Type"
          values := [("TYPE_DOUBLE", 1), ("TYPE_FLOAT", 2), ("TYPE_INT64", 3),
            ("TYPE_UINT64", 4), ("TYPE_INT32", 5), ("TYPE_FIXED64", 6), ("TYPE_FIXED32", 7),
            ("TYPE_BOOL", 8), ("TYPE_STRING", 9), ("TYPE_GROUP", 10), ("TYPE_MESSAGE", 11),
            ("TYPE_BYTES", 12), ("TYPE_UINT32", 13), ("TYPE_ENUM", 14), ("TYPE_SFIXED32", 15),
            ("TYPE_SFIXED64", 16), ("TYPE_SINT32", 17), ("TYPE_SINT64", 18)] },
        { name := "Label"
          values := [("LABEL_OPTIONAL", 1), ("LABEL_REQUIRED", 2), ("LABEL_REPEATED", 3)] }] },
    { name := "OneofDescriptorProto"
      fields := [one "name" 1 .string, ref "options" 2 (proto "OneofOptions")] }]

private def enumMessages : List MessageDecl :=
  [{ name := "EnumDescriptorProto"
     fields := [one "name" 1 .string, refs "value" 2 (proto "EnumValueDescriptorProto"),
       ref "options" 3 (proto "EnumOptions"),
       refs "reserved_range" 4 (proto "EnumDescriptorProto.EnumReservedRange"),
       many "reserved_name" 5 .string]
     messages := [
       { name := "EnumReservedRange"
         fields := [one "start" 1 .int32, one "end" 2 .int32] }] },
    { name := "EnumValueDescriptorProto"
      fields := [one "name" 1 .string, one "number" 2 .int32,
        ref "options" 3 (proto "EnumValueOptions")] },
    { name := "ServiceDescriptorProto"
      fields := [one "name" 1 .string, refs "method" 2 (proto "MethodDescriptorProto"),
        ref "options" 3 (proto "ServiceOptions")] },
    { name := "MethodDescriptorProto"
      fields := [one "name" 1 .string, one "input_type" 2 .string, one "output_type" 3 .string,
        ref "options" 4 (proto "MethodOptions"), one "client_streaming" 5 .bool,
        one "server_streaming" 6 .bool] }]

private def fileOptionMessages : List MessageDecl :=
  [{ name := "FileOptions"
     fields := [one "java_package" 1 .string, one "java_outer_classname" 8 .string,
       one "java_multiple_files" 10 .bool, one "java_generate_equals_and_hash" 20 .bool,
       one "java_string_check_utf8" 27 .bool,
       choice "optimize_for" 9 (proto "FileOptions.OptimizeMode"), one "go_package" 11 .string,
       one "cc_generic_services" 16 .bool, one "java_generic_services" 17 .bool,
       one "py_generic_services" 18 .bool, one "php_generic_services" 42 .bool,
       one "deprecated" 23 .bool, one "cc_enable_arenas" 31 .bool,
       one "objc_class_prefix" 36 .string, one "csharp_namespace" 37 .string,
       one "swift_prefix" 39 .string, one "php_class_prefix" 40 .string,
       one "php_namespace" 41 .string, one "php_metadata_namespace" 44 .string,
       one "ruby_package" 45 .string, uninterpreted]
     enums := [
       { name := "OptimizeMode"
         values := [("SPEED", 1), ("CODE_SIZE", 2), ("LITE_RUNTIME", 3)] }]
     reserved := [(38, 39)]
     extensionRanges := open1000 },
    { name := "MessageOptions"
      fields := [one "message_set_wire_format" 1 .bool,
        one "no_standard_descriptor_accessor" 2 .bool, one "deprecated" 3 .bool,
        one "map_entry" 7 .bool, uninterpreted]
      reserved := [(4, 5), (5, 6), (6, 7), (8, 9), (9, 10)]
      extensionRanges := open1000 },
    { name := "FieldOptions"
      fields := [choice "ctype" 1 (proto "FieldOptions.CType"), one "packed" 2 .bool,
        choice "jstype" 6 (proto "FieldOptions.JSType"), one "lazy" 5 .bool,
        one "unverified_lazy" 15 .bool, one "deprecated" 3 .bool, one "weak" 10 .bool,
        uninterpreted]
      enums := [
        { name := "CType", values := [("STRING", 0), ("CORD", 1), ("STRING_PIECE", 2)] },
        { name := "JSType", values := [("JS_NORMAL", 0), ("JS_STRING", 1), ("JS_NUMBER", 2)] }]
      reserved := [(4, 5)]
      extensionRanges := open1000 }]

private def optionMessages : List MessageDecl :=
  [{ name := "OneofOptions", fields := [uninterpreted], extensionRanges := open1000 },
    { name := "EnumOptions"
      fields := [one "allow_alias" 2 .bool, one "deprecated" 3 .bool, uninterpreted]
      reserved := [(5, 6)]
      extensionRanges := open1000 },
    { name := "EnumValueOptions"
      fields := [one "deprecated" 1 .bool, uninterpreted], extensionRanges := open1000 },
    { name := "ServiceOptions"
      fields := [one "deprecated" 33 .bool, uninterpreted], extensionRanges := open1000 },
    { name := "MethodOptions"
      fields := [one "deprecated" 33 .bool,
        choice "idempotency_level" 34 (proto "MethodOptions.IdempotencyLevel"), uninterpreted]
      enums := [
        { name := "IdempotencyLevel"
          values := [("IDEMPOTENCY_UNKNOWN", 0), ("NO_SIDE_EFFECTS", 1), ("IDEMPOTENT", 2)] }]
      extensionRanges := open1000 },
    { name := "UninterpretedOption"
      fields := [refs "name" 2 (proto "UninterpretedOption.NamePart"),
        one "identifier_value" 3 .string, one "positive_int_value" 4 .uint64,
        one "negative_int_value" 5 .int64, one "double_value" 6 .double,
        one "string_value" 7 .bytes, one "aggregate_value" 8 .string]
      messages := [
        { name := "NamePart"
          fields := [must "name_part" 1 .string, must "is_extension" 2 .bool] }] },
    { name := "SourceCodeInfo"
      fields := [refs "location" 1 (proto "SourceCodeInfo.Location")]
      messages := [
        { name := "Location"
          fields := [many "path" 1 .int32, many "span" 2 .int32,
            one "leading_comments" 3 .string, one "trailing_comments" 4 .string,
            many "leading_detached_comments" 6 .string] }] },
    { name := "GeneratedCodeInfo"
      fields := [refs "annotation" 1 (proto "GeneratedCodeInfo.Annotation")]
      messages := [
        { name := "Annotation"
          fields := [many "path" 1 .int32, one "source_file" 2 .string, one "begin" 3 .int32,
            one "end" 4 .int32] }] }]

/-- The schema of schema files. -/
def schemaFile : FileDecl where
  name := "google/protobuf/descriptor.proto"
  package := "google.protobuf"
  dialect := .proto2
  messages := fileMessages ++ messageMessages ++ enumMessages ++ fileOptionMessages
    ++ optionMessages

/-! ## Plain options -/

private def plain (name : String) : String := ".plain." ++ name

private def extend (name : String) (number : Int) (extendee type : String) : FieldDecl :=
  { ref name number (plain type) with extendee := some (proto extendee) }

/-- The Plain options, which extend the options of schema files. -/
def optionsFile : FileDecl where
  name := "plain/options.proto"
  package := "plain"
  dependencies := [schemaFile.name]
  messages := [
    { name := "OverrideType", fields := [one "name" 1 .string, one "import_path" 2 .string] },
    { name := "VirtualField"
      fields := [one "name" 1 .string, one "kind" 2 .string, one "number" 3 .int32,
        one "type_ref" 4 .string, one "repeated" 5 .bool] },
    { name := "VirtualType"
      fields := [one "name" 1 .string, refs "fields" 2 (plain "VirtualField")] },
    { name := "Selector"
      fields := [one "target_full_path" 1 .string, one "field_kind" 2 .string,
        one "field_cardinality" 3 .string, one "field_type_url" 4 .string] },
    { name := "TypeOverride"
      fields := [ref "selector" 1 (plain "Selector"), ref "target" 2 (plain "OverrideType")] },
    { name := "FileOptions", fields := [refs "go_types_overrides" 1 (plain "TypeOverride")] },
    { name := "MessageOptions"
      fields := [one "generate" 1 .bool, one "type_alias" 2 .bool,
        one "type_alias_field" 3 .string, refs "virtual_fields" 4 (plain "VirtualField"),
        refs "virtual_types" 5 (plain "VirtualType")] },
    { name := "FieldOptions"
      fields := [one "embed" 1 .bool, one "embed_with_prefix" 2 .bool, one "serialize" 3 .bool,
        ref "override_type" 4 (plain "OverrideType"), one "enum_as_string" 5 .bool,
        one "enum_as_int" 6 .bool, many "with_enums" 7 .string] },
    { name := "OneofOptions"
      fields := [one "embed" 1 .bool, one "embed_with_prefix" 2 .bool,
        one "enum_dispatched" 3 .bool, one "enum_dispatched_with_prefix" 4 .bool] }]
  extensions := [extend "file" 51001 "FileOptions" "FileOptions",
    extend "message" 51002 "MessageOptions" "MessageOptions",
    extend "field" 51003 "FieldOptions" "FieldOptions",
    extend "oneof" 51004 "OneofOptions" "OneofOptions"]

/-- The files that every schema with Plain options starts with. -/
def builtinFiles : List FileDecl :=
  [schemaFile, optionsFile]

/-! ## Requests and responses -/

private def compiler (name : String) : String := proto ("compiler." ++ name)

/-- The request and the response of a generator. -/
def generatorFile : FileDecl where
  name := "google/protobuf/compiler/plugin.proto"
  package := "google.protobuf.compiler"
  dialect := .proto2
  dependencies := [schemaFile.name]
  messages := [
    { name := "Version"
      fields := [one "major" 1 .int32, one "minor" 2 .int32, one "patch" 3 .int32,
        one "suffix" 4 .string] },
    { name := "CodeGeneratorRequest"
      fields := [many "file_to_generate" 1 .string, one "parameter" 2 .string,
        refs "proto_file" 15 (proto "FileDescriptorProto"),
        ref "compiler_version" 3 (compiler "Version")] },
    { name := "CodeGeneratorResponse"
      fields := [one "error" 1 .string, one "supported_features" 2 .uint64,
        refs "file" 15 (compiler "CodeGeneratorResponse.File")]
      messages := [
        { name := "File"
          fields := [one "name" 1 .string, one "insertion_point" 2 .string,
            one "content" 15 .string,
            ref "generated_code_info" 16 (proto "GeneratedCodeInfo")] }]
      enums := [
        { name := "Feature", values := [("FEATURE_NONE", 0), ("FEATURE_PROTO3_OPTIONAL", 1)] }] }]

end PlainSchema
