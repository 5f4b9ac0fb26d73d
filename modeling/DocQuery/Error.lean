import DocQuery.Json.Printer
import DocQuery.Query.Error

namespace DocQuery

inductive DocumentFault where
  | notAnObject
  | collectionName (name : String)
  | duplicateId (id : Json) (collection : String)
  | malformedOrder (order : Json)
  | malformedDirection (field : String) (direction : Json)
  | fixturesNotAnObject
  | fixtureNotAnArray (collection : String)
  | entityNotAnObject (collection : String)
  | idNotAString (id : Json)
  | unsavedEntity (collection : String)
  | other (reason : String)

def DocumentFault.text : DocumentFault → String
  | notAnObject => "Document must be a JSON object"
  | collectionName name => "Invalid collection name '" ++ name ++ "'"
  | duplicateId id collection =>
    "Duplicate _id " ++ id.text ++ " in collection '" ++ collection ++ "'"
  | malformedOrder order => "Order document must be a non-empty object, got " ++ order.text
  | malformedDirection field direction =>
    "Direction of '" ++ field ++ "' must be 1 or -1, got " ++ direction.text
  | fixturesNotAnObject => "Fixture file must map collection names to document arrays"
  | fixtureNotAnArray collection => "Fixtures for '" ++ collection ++ "' must be an array"
  | entityNotAnObject collection => collection ++ " does not serialize to an object"
  | idNotAString id => "Expected a string _id, store assigned " ++ id.text
  | unsavedEntity collection => "Cannot delete an unsaved " ++ collection
  | other reason => reason

inductive ConfigFault where
  | emptyHost
  | emptyDatabase
  | unpairedCredentials
  | invalidPort (name value : String)
  | malformedFile
  | other (reason : String)

def ConfigFault.text : ConfigFault → String
  | emptyHost => "host must not be empty"
  | emptyDatabase => "database must not be empty"
  | unpairedCredentials => "username and password must be set together"
  | invalidPort name value => name ++ " is not a valid port: '" ++ value ++ "'"
  | malformedFile => "malformed settings file"
  | other reason => reason

inductive Error where
  | query (e : QueryError)
  | collectionNotFound (name : String)
  | documentNotFound (id : String)
  | invalidDocument (fault : DocumentFault)
  | indexNotFound (name : String)
  | config (fault : ConfigFault)
  | connection (reason : String)
  | unreadableFile
  | malformedJson
  | internal (reason : String)

def Error.message : Error → String
  | query e => e.message
  | collectionNotFound name => "Collection '" ++ name ++ "' not found"
  | documentNotFound id => "Document with id '" ++ id ++ "' not found"
  | invalidDocument fault => "Invalid document: " ++ fault.text
  | indexNotFound name => "Index '" ++ name ++ "' not found"
  | config fault => "Configuration error: " ++ fault.text
  | connection reason => "Connection error: " ++ reason
  | unreadableFile => "IO error: unreadable file"
  | malformedJson => "JSON error: malformed text"
  | internal reason => "Internal error: " ++ reason

end DocQuery
