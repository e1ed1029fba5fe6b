import Switchboard.Capabilities.Schema

namespace Switchboard.Capabilities.Provider

def saveOptions : Schema := .record .plain [("includeText", .optional, .bool)]

def save : Schema := .oneOf [.bool, saveOptions]

def textDocumentSyncOptions : Schema := .record .plain [
  ("openClose", .optional, .bool),
  ("change", .optional, .int32),
  ("willSave", .optional, .bool),
  ("willSaveWaitUntil", .optional, .bool),
  ("save", .optional, save)]

def textDocumentSync : Schema := .oneOf [.int32, textDocumentSyncOptions]

def notebookFilterByType : Schema := .record .keyed [
  ("notebook_type", .required, .str),
  ("scheme", .optional, .str),
  ("pattern", .optional, .str)]

def notebookFilterByScheme : Schema := .record .keyed [
  ("notebook_type", .optional, .str),
  ("scheme", .required, .str),
  ("pattern", .optional, .str)]

def notebookFilterByPattern : Schema := .record .keyed [
  ("notebook_type", .optional, .str),
  ("scheme", .optional, .str),
  ("pattern", .required, .str)]

def notebook : Schema :=
  .oneOf [.str, notebookFilterByType, notebookFilterByScheme, notebookFilterByPattern]

def notebookCell : Schema := .record .plain [("language", .required, .str)]

def notebookSelectorByNotebook : Schema := .record .keyed [
  ("notebook", .required, notebook),
  ("cells", .optional, .list notebookCell)]

def notebookSelectorByCells : Schema := .record .keyed [
  ("notebook", .optional, notebook),
  ("cells", .required, .list notebookCell)]

def notebookSelector : Schema := .oneOf [notebookSelectorByNotebook, notebookSelectorByCells]

def notebookSyncOptions : Schema := .record .plain [
  ("notebookSelector", .required, .list notebookSelector),
  ("save", .optional, .bool)]

def notebookSyncRegistration : Schema := .record .plain [
  ("notebookSelector", .required, .list notebookSelector),
  ("save", .optional, .bool),
  ("id", .optional, .str)]

def notebookSync : Schema := .oneOf [notebookSyncOptions, notebookSyncRegistration]

def progress : Schema := .record .keyed [("workDoneProgress", .optional, .bool)]

def documentFilter : Schema := .record .plain [
  ("language", .optional, .str),
  ("scheme", .optional, .str),
  ("pattern", .optional, .str)]

def selectionRangeRegistration : Schema := .record .keyed [
  ("workDoneProgress", .optional, .bool),
  ("documentSelector", .nullable, .list documentFilter),
  ("id", .optional, .str)]

def selectionRange : Schema := .oneOf [.bool, progress, selectionRangeRegistration]

def hover : Schema := .oneOf [.bool, progress]

def completionItem : Schema := .record .plain [("labelDetailsSupport", .optional, .bool)]

def completion : Schema := .record .keyed [
  ("resolveProvider", .optional, .bool),
  ("triggerCharacters", .optional, .list .str),
  ("allCommitCharacters", .optional, .list .str),
  ("workDoneProgress", .optional, .bool),
  ("completionItem", .optional, completionItem)]

def signatureHelp : Schema := .record .keyed [
  ("triggerCharacters", .optional, .list .str),
  ("retriggerCharacters", .optional, .list .str),
  ("workDoneProgress", .optional, .bool)]

def boolOrProgress : Schema := .oneOf [.bool, progress]

def static : Schema := .record .plain [
  ("documentSelector", .nullable, .list documentFilter),
  ("id", .optional, .str)]

def boolOrStatic : Schema := .oneOf [.bool, static]

def documentSymbolOptions : Schema := .record .keyed [
  ("label", .optional, .str),
  ("workDoneProgress", .optional, .bool)]

def documentSymbol : Schema := .oneOf [.bool, documentSymbolOptions]

def workspaceSymbolOptions : Schema := .record .keyed [
  ("workDoneProgress", .optional, .bool),
  ("resolveProvider", .optional, .bool)]

def workspaceSymbol : Schema := .oneOf [.bool, workspaceSymbolOptions]

def codeActionOptions : Schema := .record .keyed [
  ("codeActionKinds", .optional, .list .str),
  ("workDoneProgress", .optional, .bool),
  ("resolveProvider", .optional, .bool)]

def codeAction : Schema := .oneOf [.bool, codeActionOptions]

def codeLens : Schema := .record .plain [("resolveProvider", .optional, .bool)]

def onTypeFormatting : Schema := .record .plain [
  ("firstTriggerCharacter", .required, .str),
  ("moreTriggerCharacter", .optional, .list .str)]

def renameOptions : Schema := .record .keyed [
  ("prepareProvider", .optional, .bool),
  ("workDoneProgress", .optional, .bool)]

def rename : Schema := .oneOf [.bool, renameOptions]

def documentLink : Schema := .record .keyed [
  ("resolveProvider", .optional, .bool),
  ("workDoneProgress", .optional, .bool)]

def empty : Schema := .record .plain []

def color : Schema := .oneOf [.bool, empty, static]

def declarationRegistration : Schema := .record .keyed [
  ("workDoneProgress", .optional, .bool),
  ("documentSelector", .nullable, .list documentFilter),
  ("id", .optional, .str)]

def declaration : Schema := .oneOf [.bool, declarationRegistration, progress]

def executeCommand : Schema := .record .keyed [
  ("commands", .required, .list .str),
  ("workDoneProgress", .optional, .bool)]

def boolOrStr : Schema := .oneOf [.bool, .str]

def workspaceFolders : Schema := .record .plain [
  ("supported", .optional, .bool),
  ("changeNotifications", .optional, boolOrStr)]

def fileKind : Schema := .choice ["file", "folder"]

def filePatternOptions : Schema := .record .plain [("ignoreCase", .optional, .bool)]

def filePattern : Schema := .record .plain [
  ("glob", .required, .str),
  ("matches", .optional, fileKind),
  ("options", .optional, filePatternOptions)]

def fileFilter : Schema := .record .plain [
  ("scheme", .nullable, .str),
  ("pattern", .required, filePattern)]

def fileOperation : Schema := .record .plain [("filters", .required, .list fileFilter)]

def fileOperations : Schema := .record .plain [
  ("didCreate", .optional, fileOperation),
  ("willCreate", .optional, fileOperation),
  ("didRename", .optional, fileOperation),
  ("willRename", .optional, fileOperation),
  ("didDelete", .optional, fileOperation),
  ("willDelete", .optional, fileOperation)]

def workspace : Schema := .record .plain [
  ("workspaceFolders", .optional, workspaceFolders),
  ("fileOperations", .optional, fileOperations)]

def legend : Schema := .record .plain [
  ("tokenTypes", .required, .list .str),
  ("tokenModifiers", .required, .list .str)]

def fullDelta : Schema := .record .keyed [("delta", .optional, .bool)]

def full : Schema := .oneOf [.bool, fullDelta]

def semanticTokensOptions : Schema := .record .keyed [
  ("workDoneProgress", .optional, .bool),
  ("legend", .required, legend),
  ("range", .optional, .bool),
  ("full", .optional, full)]

def semanticTokensRegistration : Schema := .record .keyed [
  ("documentSelector", .nullable, .list documentFilter),
  ("workDoneProgress", .optional, .bool),
  ("legend", .required, legend),
  ("range", .optional, .bool),
  ("full", .optional, full),
  ("id", .optional, .str)]

def semanticTokens : Schema := .oneOf [semanticTokensOptions, semanticTokensRegistration]

def monikerRegistration : Schema := .record .keyed [
  ("documentSelector", .nullable, .list documentFilter),
  ("workDoneProgress", .optional, .bool)]

def moniker : Schema := .oneOf [.bool, progress, monikerRegistration]

def linkedEditingRegistration : Schema := .record .keyed [
  ("documentSelector", .nullable, .list documentFilter),
  ("workDoneProgress", .optional, .bool),
  ("id", .optional, .str)]

def linkedEditing : Schema := .oneOf [.bool, progress, linkedEditingRegistration]

def inlineValueRegistration : Schema := .record .keyed [
  ("workDoneProgress", .optional, .bool),
  ("documentSelector", .nullable, .list documentFilter),
  ("id", .optional, .str)]

def inlineValue : Schema := .oneOf [.bool, progress, inlineValueRegistration]

def inlayHintOptions : Schema := .record .keyed [
  ("workDoneProgress", .optional, .bool),
  ("resolveProvider", .optional, .bool)]

def inlayHintRegistration : Schema := .record .keyed [
  ("workDoneProgress", .optional, .bool),
  ("resolveProvider", .optional, .bool),
  ("documentSelector", .nullable, .list documentFilter),
  ("id", .optional, .str)]

def inlayHint : Schema := .oneOf [.bool, inlayHintOptions, inlayHintRegistration]

def diagnosticOptions : Schema := .record .keyed [
  ("identifier", .optional, .str),
  ("interFileDependencies", .required, .bool),
  ("workspaceDiagnostics", .required, .bool),
  ("workDoneProgress", .optional, .bool)]

def diagnosticRegistration : Schema := .record .keyed [
  ("documentSelector", .nullable, .list documentFilter),
  ("identifier", .optional, .str),
  ("interFileDependencies", .required, .bool),
  ("workspaceDiagnostics", .required, .bool),
  ("workDoneProgress", .optional, .bool),
  ("id", .optional, .str)]

def diagnostic : Schema := .oneOf [diagnosticOptions, diagnosticRegistration]

def serverCapabilities : Schema := .record .plain [
  ("positionEncoding", .optional, .str),
  ("textDocumentSync", .optional, textDocumentSync),
  ("notebookDocumentSync", .optional, notebookSync),
  ("selectionRangeProvider", .optional, selectionRange),
  ("hoverProvider", .optional, hover),
  ("completionProvider", .optional, completion),
  ("signatureHelpProvider", .optional, signatureHelp),
  ("definitionProvider", .optional, boolOrProgress),
  ("typeDefinitionProvider", .optional, boolOrStatic),
  ("implementationProvider", .optional, boolOrStatic),
  ("referencesProvider", .optional, boolOrProgress),
  ("documentHighlightProvider", .optional, boolOrProgress),
  ("documentSymbolProvider", .optional, documentSymbol),
  ("workspaceSymbolProvider", .optional, workspaceSymbol),
  ("codeActionProvider", .optional, codeAction),
  ("codeLensProvider", .optional, codeLens),
  ("documentFormattingProvider", .optional, boolOrProgress),
  ("documentRangeFormattingProvider", .optional, boolOrProgress),
  ("documentOnTypeFormattingProvider", .optional, onTypeFormatting),
  ("renameProvider", .optional, rename),
  ("documentLinkProvider", .optional, documentLink),
  ("colorProvider", .optional, color),
  ("foldingRangeProvider", .optional, color),
  ("declarationProvider", .optional, declaration),
  ("executeCommandProvider", .optional, executeCommand),
  ("workspace", .optional, workspace),
  ("callHierarchyProvider", .optional, boolOrProgress),
  ("semanticTokensProvider", .optional, semanticTokens),
  ("monikerProvider", .optional, moniker),
  ("linkedEditingRangeProvider", .optional, linkedEditing),
  ("inlineValueProvider", .optional, inlineValue),
  ("inlayHintProvider", .optional, inlayHint),
  ("diagnosticProvider", .optional, diagnostic),
  ("inlineCompletionProvider", .optional, boolOrProgress),
  ("experimental", .optional, .any)]

end Switchboard.Capabilities.Provider
