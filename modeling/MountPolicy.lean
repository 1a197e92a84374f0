import MountPolicy.Main
import MountPolicy.Proofs.ConfiguredLists
import MountPolicy.Proofs.RequestedOptions
import MountPolicy.Proofs.MountString
import MountPolicy.Proofs.BuiltinPolicy
import MountPolicy.Proofs.Segments
import MountPolicy.Proofs.JoinedStrings
import MountPolicy.Proofs.Precedence
import MountPolicy.Proofs.SectionLines
import MountPolicy.Proofs.SectionBlocks
import MountPolicy.Proofs.Bytes
import MountPolicy.Proofs.AppliedEntries
import MountPolicy.Proofs.Spellings
import MountPolicy.Proofs.ConfigFile
import MountPolicy.Proofs.ForeignSections
import MountPolicy.Proofs.DefaultNames
import MountPolicy.Proofs.Failures
import MountPolicy.Proofs.JoinedOptions
import MountPolicy.Proofs.KeyGrammar
import MountPolicy.Proofs.InsertedBlocks
import MountPolicy.Proofs.WellFormed
import MountPolicy.Proofs.BuiltinDefaults
import MountPolicy.Proofs.FilledDefaults
import MountPolicy.Proofs.AllowedDefaults
import MountPolicy.Proofs.StoredOptions
import MountPolicy.Proofs.OrderedUnion
import MountPolicy.Proofs.FirstRefusal
import MountPolicy.Proofs.DeviceRecords
import MountPolicy.Proofs.Overrides
import MountPolicy.Proofs.CallerAccount
import MountPolicy.Proofs.SharedModes
import MountPolicy.Proofs.ByteModes
import MountPolicy.Proofs.ItemScan
import MountPolicy.Proofs.ByteScan
