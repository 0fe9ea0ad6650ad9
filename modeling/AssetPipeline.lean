import AssetPipeline.PyStr
import AssetPipeline.Fs
import AssetPipeline.Run
import AssetPipeline.Prune
import AssetPipeline.Bundle
import AssetPipeline.NtPath
import AssetPipeline.Compress
import AssetPipeline.Archive
import AssetPipeline.Restore
import AssetPipeline.Unbundle
import AssetPipeline.Draft
import AssetPipeline.Router
import AssetPipeline.Pipeline
import AssetPipeline.Reverse
import AssetPipeline.Logo
import AssetPipeline.Recover
import AssetPipeline.Artifacts
import AssetPipeline.Freshness
import AssetPipeline.Dashboard
import AssetPipeline.Session
import AssetPipeline.LogoHeader
import AssetPipeline.HwVerify
