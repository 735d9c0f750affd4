namespace ResourceTable

/-- The description of each field by its key; the empty key describes the metadata as a whole. -/
def objectMetaDocs : List (String × String) :=
  [
    ("",
      "ObjectMeta is metadata that all persisted resources must have, which includes all " ++
      "objects users must create."),
    ("name",
      "Name must be unique within a namespace. Is required when creating resources, " ++
      "although some resources may allow a client to request the generation of an " ++
      "appropriate name automatically. Name is primarily intended for creation idempotence " ++
      "and configuration definition. Cannot be updated. More info: " ++
      "https://kubernetes.io/docs/concepts/overview/working-with-objects/names#names"),
    ("generateName",
      "GenerateName is an optional prefix, used by the server, to generate a unique name " ++
      "ONLY IF the Name field has not been provided. If this field is used, the name " ++
      "returned to the client will be different than the name passed. This value will also " ++
      "be combined with a unique suffix. The provided value has the same validation rules " ++
      "as the Name field, and may be truncated by the length of the suffix required to " ++
      "make the value unique on the server."),
    ("namespace",
      "Namespace defines the space within which each name must be unique. An empty " ++
      "namespace is equivalent to the \"default\" namespace, but \"default\" is the " ++
      "canonical representation. Not all objects are required to be scoped to a namespace " ++
      "- the value of this field for those objects will be empty.\n\nMust be a DNS_LABEL. " ++
      "Cannot be updated. More info: " ++
      "https://kubernetes.io/docs/concepts/overview/working-with-objects/namespaces"),
    ("selfLink",
      "Deprecated: selfLink is a legacy read-only field that is no longer populated by the " ++
      "system."),
    ("uid",
      "UID is the unique in time and space value for this object. It is typically " ++
      "generated by the server on successful creation of a resource and is not allowed to " ++
      "change on PUT operations.\n\nPopulated by the system. Read-only. More info: " ++
      "https://kubernetes.io/docs/concepts/overview/working-with-objects/names#uids"),
    ("resourceVersion",
      "An opaque value that represents the internal version of this object that can be " ++
      "used by clients to determine when objects have changed. May be used for optimistic " ++
      "concurrency, change detection, and the watch operation on a resource or set of " ++
      "resources. Clients must treat these values as opaque and passed unmodified back to " ++
      "the server. They may only be valid for a particular resource or set of " ++
      "resources.\n\nPopulated by the system. Read-only. Value must be treated as opaque " ++
      "by clients."),
    ("generation",
      "A sequence number representing a specific generation of the desired state. " ++
      "Populated by the system. Read-only."),
    ("creationTimestamp",
      "CreationTimestamp is a timestamp representing the server time when this object was " ++
      "created. It is not guaranteed to be set in happens-before order across separate " ++
      "operations. Clients may not set this value. It is represented in RFC3339 form and " ++
      "is in UTC.\n\nPopulated by the system. Read-only. Null for lists."),
    ("deletionTimestamp",
      "DeletionTimestamp is RFC 3339 date and time at which this resource will be deleted. " ++
      "This field is set by the server when a graceful deletion is requested by the user, " ++
      "and is not directly settable by a client.\n\nPopulated by the system when a " ++
      "graceful deletion is requested. Read-only."),
    ("labels",
      "Map of string keys and values that can be used to organize and categorize (scope " ++
      "and select) objects. May match selectors of replication controllers and services. " ++
      "More info: https://kubernetes.io/docs/concepts/overview/working-with-objects/labels"),
    ("annotations",
      "Annotations is an unstructured key value map stored with a resource that may be set " ++
      "by external tools to store and retrieve arbitrary metadata. They are not queryable " ++
      "and should be preserved when modifying objects. More info: " ++
      "https://kubernetes.io/docs/concepts/overview/working-with-objects/annotations")
  ]

def objectMetaDoc (key : String) : String := (objectMetaDocs.lookup key).getD ""

end ResourceTable
